import Dalm.PhotoViews
import Dalm.SearchDay
import Dalm.UnviewedMatches

/-! The numbers of the profile and the rows of the home screen, beside the tabs of the moments they sum up. -/
namespace Dalm
open Relational Txn HomeRepository

/-- The photos and matches of a user; the postcards are not counted. -/
def UserRepository.getStats (userId : UUID) : App (Nat × Nat × Nat) := do
  let photoCount ← query fun db =>
    (db.photos.rows.filter fun photo => photo.userId = userId ∧ photo.status ≠ .deleted).length
  let matchCount ← query fun db =>
    (db.participants.rows.filter fun row => row.userId = userId ∧ row.hiddenAt = none).length
  return (photoCount,matchCount,0)

structure UserStats where
  photoCount : Nat
  matchCount : Nat
  receivedPostcardCount : Nat
deriving DecidableEq

structure UserProfile where
  id : UUID
  nickname : Option String
  profileImageUrl : Option String
  bio : Option String
  status : UserStatus
  stats : UserStats
deriving DecidableEq

def userProfile (user : User) : App UserProfile := do
  let stats ← UserRepository.getStats user.id
  return ⟨user.id,user.nickname,none,user.bio,user.status,⟨stats.1,stats.2.1,stats.2.2⟩⟩

/-- GET /v1/users/me -/
def getMyProfile (userId : UUID) : App UserProfile := do
  match (← UserRepository.getById userId).filter (fun user => user.status ≠ .withdrawn) with
  | none => throw UserRepository.userNotFound
  | some user =>
    if user.onboardingRequired then throw UserRepository.onboardingRequired
    else userProfile user

/-- Seats are those of matched photos, by their owners, and a photo is gone when it says so. -/
structure Seating (db : Db) : Prop where
  paired : Paired db
  deleted : ∀ photo ∈ db.photos.rows, photo.deletedAt = none ↔ photo.status ≠ .deleted
  seated : ∀ seat ∈ db.participants.rows, ∃ photo, db.photos.get? seat.photoId = some photo ∧
    photo.userId = seat.userId ∧ photo.status = .matched
  matched : ∀ photo ∈ db.photos.rows, photo.status = .matched → ∃ seat ∈ db.participants.rows,
    seat.photoId = photo.id

section seating
variable {K : Type} [Field K] [LinearOrder K] [IsStrictOrderedRing K] [FloorRing K]
  {settings : Settings} {sqrt : ℚ → K} {users : Table User.id} {db : Db}

theorem Lived.seating (lived : Lived settings sqrt users db) : Seating db := by
  have paired := lived.paired
  obtain ⟨s,reachable,same⟩ := lived
  have photos : db.photos = s.db.photos := congrArg (fun db => db.photos) same
  have seats : db.participants.rows.map seat = s.db.participants.rows.map seat := by
    have rows := congrArg (fun db => db.participants.rows) same
    simpa only [bare_participants] using rows
  refine ⟨paired,fun photo member => ?_,fun row member => ?_,fun photo member matched => ?_⟩
  · rw [photos] at member
    exact (reachable.inv.photos _ photo (Table.get?_of_mem member)).deleted
  · have there := List.mem_map_of_mem (f := seat) member
    rw [seats] at there
    obtain ⟨row',member',equal⟩ := List.mem_map.mp there
    have found : s.db.participants.get? (row'.matchId,row'.userId) = some row' := Table.get?_of_mem member'
    obtain ⟨_,photo,stored,owner,status⟩ := reachable.inv.matches_.participant _ _ row' found
    have image : row'.photoId = row.photoId := congrArg (fun row => row.photoId) equal
    have user : row'.userId = row.userId := congrArg (fun row => row.userId) equal
    exact ⟨photo,by rw [photos,← image]; exact stored,owner.trans user,status⟩
  · rw [photos] at member
    obtain ⟨m,u,row,found,used⟩ := reachable.inv.matches_.matched _ photo (Table.get?_of_mem member) matched
    have there := List.mem_map_of_mem (f := seat) (Table.mem_rows_of_get? found).1
    change seat row ∈ s.db.participants.rows.map seat at there
    rw [← seats] at there
    obtain ⟨row',member',equal⟩ := List.mem_map.mp there
    exact ⟨row',member',(congrArg (fun row => row.photoId) equal).trans used⟩

end seating

section rows
variable {db : Db} {userId : UUID} {today : Date} {excludeToday : Bool}

theorem column_participant (paired : Paired db) {seat : MatchParticipant} (there : seat ∈ db.participants.rows)
    {photo : Photo} (same : seat.photoId = photo.id) {row : MomentColumns}
    (joined : row ∈ momentColumns seat.userId db photo) : row.participant = some seat := by
  have inside := List.mem_map_of_mem (f := MomentColumns.participant) joined
  rw [momentColumns_participants paired] at inside
  have mine : seat ∈ db.participants.rows.filter fun row => row.photoId = photo.id ∧ row.userId = seat.userId :=
    List.mem_filter.mpr ⟨there,by simp [same]⟩
  cases found : row.participant with
  | none =>
    rw [found] at inside
    exact absurd (none_mem_outer inside ▸ mine) List.not_mem_nil
  | some other =>
    rw [found] at inside
    obtain ⟨there',own⟩ := List.mem_filter.mp (some_mem_outer.mp inside)
    rw [paired.seat other there' seat there ((of_decide_eq_true own).1.trans same.symm)]

theorem column_free (seating : Seating db) {photo : Photo} (stored : db.photos.get? photo.id = some photo)
    (unmatched : photo.status ≠ .matched) {row : MomentColumns} (joined : row ∈ momentColumns userId db photo) :
    row.participant = none := by
  have inside := List.mem_map_of_mem (f := MomentColumns.participant) joined
  rw [momentColumns_participants seating.paired] at inside
  cases found : row.participant with
  | none => rfl
  | some other =>
    rw [found] at inside
    obtain ⟨there,own⟩ := List.mem_filter.mp (some_mem_outer.mp inside)
    obtain ⟨photo',stored',_,matched⟩ := seating.seated other there
    rw [(of_decide_eq_true own).1,stored] at stored'
    cases stored'
    exact absurd matched unmatched

/-- A photo that a tab takes in whichever row it has is shown there. -/
theorem exists_tabRow (paired : Paired db) (filter : MomentFilter) {photo : Photo} (present : photo ∈ db.photos.rows)
    (listed : photo.userId = userId ∧ photo.deletedAt = none ∧ (excludeToday → photo.registeredDate ≠ today))
    (accepted : ∀ row ∈ momentColumns userId db photo, row.photo = photo → filter.accepts row = true) :
    ∃ row ∈ tabRows userId today excludeToday db filter, row.photo = photo := by
  obtain ⟨row,joined⟩ := exists_column paired userId photo
  have image := momentColumns_photo joined
  exact ⟨row,mem_tabRows.mpr ⟨photo,present,listed,joined,accepted row joined image⟩,image⟩

/-- The photo of a seat that is not hidden is in the MATCHED tab. -/
theorem Seating.seat_listed (seating : Seating db) {seat : MatchParticipant} (there : seat ∈ db.participants.rows)
    (shown : seat.hiddenAt = none) (day : excludeToday → ∀ photo, db.photos.get? seat.photoId = some photo →
      photo.registeredDate ≠ today) : seat.photoId ∈
        (tabRows seat.userId today excludeToday db (.status .matched)).map fun row => row.photo.id := by
  obtain ⟨photo,stored,owner,matched⟩ := seating.seated seat there
  obtain ⟨present,key⟩ := Table.mem_rows_of_get? stored
  have kept := (seating.deleted photo present).mpr (by rw [matched]; exact fun same => nomatch same)
  obtain ⟨row,listed,image⟩ := exists_tabRow seating.paired (.status .matched) present
    ⟨owner,kept,fun excluded => day excluded photo stored⟩ fun row joined image => by
      have mine := column_participant seating.paired there key.symm joined
      simp [MomentFilter.accepts,image,mine,matched,shown]
  exact List.mem_map.mpr ⟨row,listed,image ▸ key⟩

/-- The matches of the profile are the rows of the MATCHED tab. -/
theorem Seating.matchCount (seating : Seating db) :
    (db.participants.rows.filter fun row => row.userId = userId ∧ row.hiddenAt = none).length =
      (tabRows userId today false db (.status .matched)).length := by
  have ids : ((db.participants.rows.filter fun row => row.userId = userId ∧ row.hiddenAt = none).map
      MatchParticipant.photoId).Perm ((tabRows userId today false db (.status .matched)).map fun row => row.photo.id) := by
    refine (List.perm_ext_iff_of_nodup ?_ (tabRows_ids seating.paired)).mpr fun p => ⟨fun inside => ?_,fun inside => ?_⟩
    · refine List.pairwise_map.mpr (List.Pairwise.imp_of_mem ?_ ((List.Nodup.of_map _ db.participants.distinct).filter _))
      intro first second one two apart same
      exact apart (seating.paired.seat first (List.mem_of_mem_filter one) second (List.mem_of_mem_filter two) same)
    · obtain ⟨seat,member,rfl⟩ := List.mem_map.mp inside
      obtain ⟨there,chosen⟩ := List.mem_filter.mp member
      obtain ⟨rfl,shown⟩ := of_decide_eq_true chosen
      exact seating.seat_listed there shown fun excluded => nomatch excluded
    · obtain ⟨row,member,rfl⟩ := List.mem_map.mp inside
      obtain ⟨photo,present,⟨owner,_,_⟩,joined,accepted⟩ := mem_tabRows.mp member
      obtain ⟨matched,shown⟩ := of_decide_eq_true accepted
      rw [momentColumns_photo joined] at matched ⊢
      obtain ⟨seat,there,used⟩ := seating.matched photo present matched
      obtain ⟨photo',stored,own,_⟩ := seating.seated seat there
      rw [used,Table.get?_of_mem present] at stored
      cases stored
      have user : seat.userId = userId := own.symm.trans owner
      subst user
      rw [column_participant seating.paired there used joined] at shown
      exact List.mem_map.mpr ⟨seat,List.mem_filter.mpr ⟨there,decide_eq_true ⟨rfl,shown⟩⟩,used⟩
  simpa using ids.length_eq

/-- The photos of the profile are the rows of the ALL and the HIDDEN tab. -/
theorem Seating.photoCount (seating : Seating db) :
    (db.photos.rows.filter fun photo => photo.userId = userId ∧ photo.status ≠ .deleted).length =
      (tabRows userId today false db .all).length + (tabRows userId today false db .hidden).length := by
  have ids : ((db.photos.rows.filter fun photo => photo.userId = userId ∧ photo.status ≠ .deleted).map Photo.id).Perm
      ((tabRows userId today false db .all).map (fun row => row.photo.id) ++
        (tabRows userId today false db .hidden).map fun row => row.photo.id) := by
    refine (List.perm_ext_iff_of_nodup ?_ ?_).mpr fun p => ⟨fun inside => ?_,fun inside => ?_⟩
    · exact db.photos.distinct.sublist (List.filter_sublist.map _)
    · refine List.nodup_append'.mpr ⟨tabRows_ids seating.paired,tabRows_ids seating.paired,fun p one two => ?_⟩
      obtain ⟨row,shown,rfl⟩ := List.mem_map.mp one
      obtain ⟨row',hidden,same⟩ := List.mem_map.mp two
      cases tabRows_same seating.paired hidden shown same
      obtain ⟨_,_,_,_,accepted⟩ := mem_tabRows.mp shown
      obtain ⟨_,_,_,_,accepted'⟩ := mem_tabRows.mp hidden
      simp only [MomentFilter.accepts,of_decide_eq_true accepted] at accepted'
      cases accepted'
    · obtain ⟨photo,member,rfl⟩ := List.mem_map.mp inside
      obtain ⟨present,chosen⟩ := List.mem_filter.mp member
      obtain ⟨owner,kept⟩ := of_decide_eq_true chosen
      obtain ⟨row,joined⟩ := exists_column seating.paired userId photo
      have listed : ∀ filter : MomentFilter, filter.accepts row = true →
          photo.id ∈ (tabRows userId today false db filter).map fun row => row.photo.id := fun filter accepted =>
        List.mem_map.mpr ⟨row,mem_tabRows.mpr ⟨photo,present,⟨owner,(seating.deleted photo present).mpr kept,by simp⟩,
          joined,accepted⟩,congrArg Photo.id (momentColumns_photo joined)⟩
      cases hidden : row.participant.bind MatchParticipant.hiddenAt with
      | none => exact List.mem_append_left _ (listed .all (by simp [MomentFilter.accepts,hidden]))
      | some at_ => exact List.mem_append_right _ (listed .hidden (by simp [MomentFilter.accepts,hidden]))
    · have listed : ∀ filter : MomentFilter, p ∈ (tabRows userId today false db filter).map (fun row => row.photo.id) →
          p ∈ (db.photos.rows.filter fun photo => photo.userId = userId ∧ photo.status ≠ .deleted).map Photo.id := by
        intro filter inside
        obtain ⟨row,member,rfl⟩ := List.mem_map.mp inside
        obtain ⟨photo,present,⟨owner,kept,_⟩,joined,_⟩ := mem_tabRows.mp member
        rw [momentColumns_photo joined]
        exact List.mem_map_of_mem (List.mem_filter.mpr ⟨present,
          decide_eq_true ⟨owner,(seating.deleted photo present).mp kept⟩⟩)
      exact (List.mem_append.mp inside).elim (listed _) (listed _)
  simpa using ids.length_eq

/-- The photos that home lists are the rows of the SEARCHING tab, whatever became of the others. -/
theorem Seating.searching (seating : Seating db) (userId : UUID) (today : Date) (excludeToday : Bool)
    {photos : Table Photo.id}
    (same : ∀ photo : Photo, photo.status = .searching → (photo ∈ photos.rows ↔ photo ∈ db.photos.rows)) :
    ((photos.rows.filter fun photo => photo.userId = userId ∧ photo.status = .searching ∧ photo.deletedAt = none ∧
      (excludeToday → photo.registeredDate ≠ today) ∧ precedes none photo.registeredAt photo.id).insertionSort
        registeredLater).map Photo.id =
      (tabRows userId today excludeToday db (.status .searching)).map fun row => row.photo.id := by
  have places : ((photos.rows.filter fun photo => photo.userId = userId ∧ photo.status = .searching ∧
      photo.deletedAt = none ∧ (excludeToday → photo.registeredDate ≠ today) ∧
      precedes none photo.registeredAt photo.id).insertionSort registeredLater).map
        (fun photo => (photo.registeredAt,photo.id)) =
      (tabRows userId today excludeToday db (.status .searching)).map
        fun row => (row.photo.registeredAt,row.photo.id) := by
    refine eq_of_decreasing ?_ (tabRows_sorted seating.paired) fun place => ⟨fun inside => ?_,fun inside => ?_⟩
    · exact List.pairwise_map.mpr (sorted_decreasing Photo.registeredAt Photo.id (fun _ _ => Iff.rfl)
        (photos.distinct.sublist (List.filter_sublist.map _)))
    · obtain ⟨photo,member,rfl⟩ := List.mem_map.mp inside
      obtain ⟨listed,chosen⟩ := List.mem_filter.mp ((List.mem_insertionSort _).mp member)
      obtain ⟨owner,searching,kept,day,_⟩ := of_decide_eq_true chosen
      have present := (same photo searching).mp listed
      have unmatched : photo.status ≠ .matched := by
        rw [searching]
        exact fun same => nomatch same
      obtain ⟨row,shown,image⟩ := exists_tabRow seating.paired (.status .searching) present
        ⟨owner,kept,day⟩ fun row joined image => by
          have free := column_free seating (Table.get?_of_mem present) unmatched joined
          simp [MomentFilter.accepts,image,searching,free]
      exact List.mem_map.mpr ⟨row,shown,by rw [image]⟩
    · obtain ⟨row,member,rfl⟩ := List.mem_map.mp inside
      obtain ⟨photo,present,⟨owner,kept,day⟩,joined,accepted⟩ := mem_tabRows.mp member
      obtain ⟨searching,_⟩ := of_decide_eq_true accepted
      rw [momentColumns_photo joined] at searching ⊢
      exact List.mem_map.mpr ⟨photo,(List.mem_insertionSort _).mpr (List.mem_filter.mpr
        ⟨(same photo searching).mpr present,decide_eq_true ⟨owner,searching,kept,day,rfl⟩⟩),rfl⟩
  have ids := congrArg (List.map Prod.snd) places
  simpa only [List.map_map,Function.comp_def] using ids

end rows

section home
variable {db : Db} {userId : UUID} {now : Time}

/-- Timing out waits for no photo but those that are validated. -/
theorem get?_timedOut {p : UUID} {photo : Photo} (found : db.photos.get? p = some photo)
    (judged : photo.status ≠ .validating) : (timedOut userId now db).photos.get? p = some photo := by
  have kept : isStale userId now photo = false := by simp [isStale,judged]
  unfold timedOut Db.updatePhotos
  rw [Table.get?_modify,found]
  simp [kept]

theorem mem_timedOut (userId : UUID) (now : Time) {photo : Photo} (judged : photo.status ≠ .validating)
    (kept : photo.status ≠ .rejected) : photo ∈ (timedOut userId now db).photos.rows ↔ photo ∈ db.photos.rows := by
  refine ⟨fun inside => ?_,fun inside => ?_⟩
  · have found := Table.get?_of_mem inside
    unfold timedOut Db.updatePhotos at found
    obtain ⟨before,there,same⟩ := Table.get?_modify_eq_some.mp found
    split at same
    next =>
      rw [same] at kept
      exact absurd rfl kept
    next =>
      rw [same]
      exact (Table.mem_rows_of_get? there).1
  · exact (Table.mem_rows_of_get? (get?_timedOut (Table.get?_of_mem inside) judged)).1

theorem Seating.get?_seated (seating : Seating db) (userId : UUID) (now : Time) {seat : MatchParticipant}
    (there : seat ∈ db.participants.rows) :
    (timedOut userId now db).photos.get? seat.photoId = db.photos.get? seat.photoId := by
  obtain ⟨photo,stored,_,matched⟩ := seating.seated seat there
  rw [stored]
  exact get?_timedOut stored (by rw [matched]; exact fun same => nomatch same)

theorem Seating.cardColumns_timedOut (seating : Seating db) (userId : UUID) (now : Time) :
    cardColumns userId (timedOut userId now db) = cardColumns userId db := by
  rw [cardColumns_eq,cardColumns_eq]
  refine List.flatMap_congr fun mine member => ?_
  have own := seating.get?_seated userId now (List.mem_of_mem_filter member)
  simp only [cardsOf,List.bind_eq_flatMap,own]
  refine List.flatMap_congr fun match_ _ => List.flatMap_congr fun photo _ =>
    List.flatMap_congr fun partner other => ?_
  rw [seating.get?_seated userId now (List.mem_of_mem_filter other)]

end home

section profile
variable {w : BackendWorld} {userId : UUID} {t n : Nat} {inputs : Nat → Input} {profile : UserProfile}

theorem alone_getStats (t n : Nat) (inputs : Nat → Input) (userId : UUID) (w : BackendWorld) :
    alone t inputs (UserRepository.getStats userId) n w =
      ⟨.ok ((w.db.photos.rows.filter fun photo => photo.userId = userId ∧ photo.status ≠ .deleted).length,
        (w.db.participants.rows.filter fun row => row.userId = userId ∧ row.hiddenAt = none).length,0),n + 2,w⟩ := by
  rw [UserRepository.getStats,alone_query,alone_query]
  rfl

/-- A profile that is answered counts the rows of the user who asks. -/
theorem getMyProfile_ok (answered : (alone t inputs (getMyProfile userId) n w).result = .ok profile) :
    profile.stats = ⟨(w.db.photos.rows.filter fun photo => photo.userId = userId ∧ photo.status ≠ .deleted).length,
      (w.db.participants.rows.filter fun row => row.userId = userId ∧ row.hiddenAt = none).length,0⟩ := by
  rw [getMyProfile,UserRepository.getById,UserRepository.select,alone_query] at answered
  split at answered
  next => cases answered
  next user kept =>
    have own : user.id = userId := Table.key_of_get? (Option.filter_eq_some_iff.mp kept).1
    split at answered
    next => cases answered
    next =>
      rw [userProfile,alone_bind,alone_getStats,own] at answered
      cases answered
      rfl

variable {K : Type} [Field K] [LinearOrder K] [IsStrictOrderedRing K] [FloorRing K]
  {settings : Settings} {sqrt : ℚ → K} {users : Table User.id} {service : Timestamps} {seoulDate : Time → Date}
  {today : Date} {tabs : Tabs}

/-- The numbers of the profile are those of the tabs, read to their ends: the photos are shown in the ALL
tab or in the HIDDEN one, and the matches are the photos of the MATCHED tab. -/
theorem profileStats (lived : Lived settings sqrt users w.db)
    (read : tabs.Read service seoulDate userId false w.db today)
    (answered : (alone t inputs (getMyProfile userId) n w).result = .ok profile) :
    profile.stats.photoCount = (photosOf tabs.all).length + (photosOf tabs.hidden).length ∧
      profile.stats.matchCount = (photosOf tabs.matched).length ∧
      ∀ visit ∈ tabs.visits, visit.data.matchedCount = profile.stats.matchCount := by
  have seating := lived.seating
  have rows := read.rows seating.paired
  have stats := getMyProfile_ok answered
  have photos : profile.stats.photoCount = (photosOf tabs.all).length + (photosOf tabs.hidden).length := by
    rw [stats,rows.all,rows.hidden,List.length_map,List.length_map]
    exact seating.photoCount
  have matches_ : profile.stats.matchCount = (photosOf tabs.matched).length := by
    rw [stats,rows.matched,List.length_map]
    exact seating.matchCount
  exact ⟨photos,matches_,fun visit member => (read.counts seating.paired member).2.1.trans matches_.symm⟩

end profile

namespace Sample

def profileOf (w : BackendWorld) : Except Exc UserProfile :=
  (alone 9 (fun _ => input 9 0) (getMyProfile 1) 0 w).result

end Sample

theorem profileStats_matched : ∃ (s : Backend) (tabs : Tabs) (profile : UserProfile),
    Reachable Sample.settings Rat.sqrt Sample.users s ∧
    tabs.Read Sample.epoch (fun _ => 0) 1 false s.db 0 ∧ photosOf tabs.matched = [11] ∧
    Sample.profileOf s.world = .ok profile ∧ profile.stats.matchCount = 1 := by
  obtain ⟨s,_,reachable,passed⟩ := Sample.reached Sample.matched
    (fun s => Sample.showsTabs s.world [11] [] [11] [] [] && (Sample.profileOf s.world).toOption.isSome)
    (by decide +kernel)
  obtain ⟨shown,present⟩ := (Bool.and_eq_true _ _).mp passed
  obtain ⟨tabs,read,_,_,matched,_⟩ := Sample.tabs_of shown
  cases answered : Sample.profileOf s.world with
  | error error =>
    rw [answered] at present
    cases present
  | ok profile =>
    obtain ⟨_,counted,_⟩ := profileStats (w := s.world) reachable.lived read answered
    exact ⟨s,tabs,profile,reachable,read,matched,answered,by rw [counted,matched]; rfl⟩

section screen
variable {w : BackendWorld} {userId : UUID} {t n : Nat} {inputs : Nat → Input} {data : HomeData}

theorem searchDay_mem (expiresAt : Option Time) (now : Time) :
    1 ≤ searchDay expiresAt now ∧ searchDay expiresAt now ≤ 7 := by
  have within := remainingDays_mem expiresAt now
  unfold searchDay
  cases remaining : remainingDays expiresAt now with
  | none => decide
  | some left =>
    have bounds := within left remaining
    dsimp only
    split <;> omega

/-- The photo of a summary, and whether its day is one of the seven. -/
def HomePhotoSummary.entry (summary : HomePhotoSummary) : UUID × Bool :=
  (summary.id,decide (1 ≤ summary.searchDay ∧ summary.searchDay ≤ 7))

theorem homeSummary_entry {photo : Photo} {summary : HomePhotoSummary}
    (answered : (alone t inputs (homeSummary photo) n w).result = .ok summary) :
    summary.entry = (photo.id,true) := by
  cases answered
  exact Prod.ext rfl (decide_eq_true (searchDay_mem _ _))

theorem activeToday_entry {latest : Option Photo} {summary : HomePhotoSummary}
    (answered : (alone t inputs (activeToday latest) n w).result = .ok (some summary)) :
    ∃ photo, latest = some photo ∧ summary.entry = (photo.id,true) := by
  unfold activeToday at answered
  cases latest with
  | none => cases answered
  | some photo =>
    refine ⟨photo,rfl,?_⟩
    dsimp only at answered
    split at answered
    next => cases answered
    next =>
      split at answered
      next =>
        obtain ⟨made,_,_,first,answered⟩ := alone_bind_ok answered
        cases answered
        exact homeSummary_entry (congrArg Ended.result first)
      next =>
        cases answered
        rfl

/-- The match as home shows it. -/
def HomeRepository.MatchCardRow.summary (card : MatchCardRow) : HomeMatchSummary :=
  ⟨card.matchId,card.myPhotoId,card.partnerImageUrl,card.matchedAt⟩

/-- What home reads, once it has timed out what waited too long. -/
theorem getHome_ok {seoulDate : Time → Date} (answered : (alone t inputs (getHome seoulDate userId) n w).result = .ok data) :
    ∃ now, ∃ db, db = timedOut userId now w.db ∧
      data.searchingPhotos.map HomePhotoSummary.entry = (((db.photos.rows.filter fun photo => photo.userId = userId ∧
        photo.status = .searching ∧ photo.deletedAt = none ∧ (true → photo.registeredDate ≠ seoulDate (inputs n).now) ∧
        precedes none photo.registeredAt photo.id).insertionSort registeredLater).take 3).map
          (fun photo => (photo.id,true)) ∧
      data.newMatch = ((unviewed userId (seoulDate (inputs n).now) db).insertionSort matchedEarlier).head?.map
        (fun row => row.row.summary) ∧
      ∀ summary ∈ data.todayPhoto, ∃ photo, latest userId (seoulDate (inputs n).now) db = some photo ∧
        summary.entry = (photo.id,true) := by
  obtain ⟨m,log,today⟩ := alone_getTodayPhoto t inputs userId (seoulDate (inputs n).now) (n + 1) w
  rw [getHome,alone_supply,alone_bind,today] at answered
  dsimp only [andThen] at answered
  rw [listSearchingPhotos,alone_query,alone_bind,alone_getNextUnviewedMatch] at answered
  dsimp only [andThen] at answered
  obtain ⟨active,_,_,activated,answered⟩ := alone_bind_ok answered
  obtain ⟨summaries,_,_,summarized,answered⟩ := alone_bind_ok answered
  cases answered
  have said := alone_mapM (g := HomePhotoSummary.entry) (h := fun photo => (photo.id,true))
    (fun _ _ _ _ => homeSummary_entry) (congrArg Ended.result summarized)
  rw [List.take_take] at said
  have newMatch := Option.map_map HomeRepository.MatchCardRow.summary CardColumns.row
    ((unviewed userId (seoulDate (inputs n).now) (timedOut userId (inputs (n + 1)).now w.db)).insertionSort
      matchedEarlier).head?
  refine ⟨(inputs (n + 1)).now,_,rfl,said,newMatch,fun summary shown => ?_⟩
  rw [show active = some summary from shown] at activated
  exact activeToday_entry (congrArg Ended.result activated)

/-- Timing out makes no match one that is left, and takes none out. -/
theorem Seating.unviewed_timedOut {db : Db} (seating : Seating db) (userId : UUID) (today : Date) (now : Time) :
    unviewed userId today (timedOut userId now db) = unviewed userId today db := by
  unfold unviewed
  rw [seating.cardColumns_timedOut]
  rfl

/-- What is shown as the next match is a photo of the MATCHED tab. -/
theorem Seating.unviewed_listed {db : Db} {today : Date} {row : CardColumns} (seating : Seating db)
    (member : row ∈ unviewed userId today db) : row.photo.id ∈
      (tabRows userId today true db (.status .matched)).map fun row => row.photo.id := by
  obtain ⟨there,left⟩ := List.mem_filter.mp member
  obtain ⟨_,shown,day,_⟩ := of_decide_eq_true left
  obtain ⟨⟨seat,rfl⟩,_,stored,_⟩ := mem_cardColumns.mp there
  rw [Table.key_of_get? stored]
  refine seating.seat_listed seat shown fun _ photo found => ?_
  cases stored.symm.trans found
  exact day

/-- The photo of the day is in no tab without the day. -/
theorem latest_unlisted {db : Db} {today : Date} {now : Time} {photo : Photo} {filter : MomentFilter}
    (found : latest userId today (timedOut userId now db) = some photo) :
    photo.id ∉ (tabRows userId today true db filter).map fun row => row.photo.id := by
  intro listed
  obtain ⟨row,member,same⟩ := List.mem_map.mp listed
  obtain ⟨other,present,⟨_,_,day⟩,joined,_⟩ := mem_tabRows.mp member
  rw [momentColumns_photo joined] at same
  obtain ⟨inside,chosen,_⟩ := latest_eq_some found
  have there := Table.get?_of_mem inside
  unfold timedOut Db.updatePhotos at there
  obtain ⟨before,stored,outcome⟩ := Table.get?_modify_eq_some.mp there
  have same : other = before := Option.some.inj ((Table.get?_of_mem present).symm.trans (same ▸ stored))
  have date : photo.registeredDate = before.registeredDate := by
    rw [outcome]
    split <;> rfl
  exact day rfl (same ▸ date.symm.trans (of_decide_eq_true chosen).2.1)

/-- What home shows beside the tabs without the day, and beside the next match that is asked for. -/
structure HomeAgrees (tabs : Tabs) (next : Option MatchCardRow) (data : HomeData) : Prop where
  searching : data.searchingPhotos.map HomePhotoSummary.id = (photosOf tabs.searching).take 3
  next : data.newMatch = next.map MatchCardRow.summary
  matched : ∀ match_ ∈ data.newMatch, match_.photoId ∈ photosOf tabs.matched
  today : ∀ summary ∈ data.todayPhoto, ∀ visits ∈ [tabs.all,tabs.searching,tabs.matched,tabs.expired,tabs.hidden],
    summary.id ∉ photosOf visits
  days : ∀ summary, data.todayPhoto = some summary ∨ summary ∈ data.searchingPhotos →
    1 ≤ summary.searchDay ∧ summary.searchDay ≤ 7

variable {K : Type} [Field K] [LinearOrder K] [IsStrictOrderedRing K] [FloorRing K]
  {settings : Settings} {sqrt : ℚ → K} {users : Table User.id} {service : Timestamps} {seoulDate : Time → Date}
  {tabs : Tabs} {next : Option MatchCardRow} {count t' n' : Nat} {inputs' : Nat → Input}

/-- Home shows the first three photos of the SEARCHING tab, a match of the MATCHED tab, which is the one
that is asked for as the next, and of the day a photo that is in no tab without the day. -/
theorem homeScreen (lived : Lived settings sqrt users w.db)
    (read : tabs.Read service seoulDate userId true w.db (seoulDate (inputs n).now))
    (answered : (alone t inputs (getHome seoulDate userId) n w).result = .ok data)
    (asked : (alone t' inputs' (getNextUnviewedMatch userId (seoulDate (inputs n).now)) n' w).result =
      .ok (next,count)) : HomeAgrees tabs next data := by
  have seating := lived.seating
  have rows := read.rows seating.paired
  obtain ⟨now,db,rfl,searching,matched,today⟩ := getHome_ok answered
  rw [alone_getNextUnviewedMatch] at asked
  cases asked
  rw [seating.unviewed_timedOut] at matched
  have listed := seating.searching userId (seoulDate (inputs n).now) true fun photo searching =>
    mem_timedOut userId now (by rw [searching]; exact fun same => nomatch same)
      (by rw [searching]; exact fun same => nomatch same)
  refine ⟨?_,?_,fun match_ shown => ?_,fun summary shown visits member => ?_,fun summary shown => ?_⟩
  · have ids := congrArg (List.map Prod.fst) searching
    rw [List.map_map,List.map_map] at ids
    rw [rows.searching,← listed,← List.map_take]
    exact ids
  · rw [matched,Option.map_map]
    rfl
  · obtain ⟨row,first,rfl⟩ := Option.map_eq_some_iff.mp (matched.symm.trans shown)
    rw [rows.matched]
    obtain ⟨there,left,_⟩ := head?_eq_some first
    exact seating.unviewed_listed (List.mem_filter.mpr ⟨there,left⟩)
  · obtain ⟨photo,found,entry⟩ := today summary shown
    have same : summary.id = photo.id := congrArg Prod.fst entry
    have apart : ∀ filter, summary.id ∉ (tabRows userId (seoulDate (inputs n).now) true w.db filter).map
        fun row => row.photo.id := fun filter => same ▸ latest_unlisted found
    simp only [List.mem_cons,List.not_mem_nil,or_false] at member
    rcases member with rfl | rfl | rfl | rfl | rfl
    · exact rows.all ▸ apart _
    · exact rows.searching ▸ apart _
    · exact rows.matched ▸ apart _
    · exact rows.expired ▸ apart _
    · exact rows.hidden ▸ apart _
  · have within : summary.entry.2 = true := by
      rcases shown with shown | listed
      · obtain ⟨photo,_,entry⟩ := today summary shown
        exact congrArg Prod.snd entry
      · have inside := List.mem_map_of_mem (f := HomePhotoSummary.entry) listed
        rw [searching] at inside
        obtain ⟨photo,_,entry⟩ := List.mem_map.mp inside
        exact (congrArg Prod.snd entry).symm
    exact of_decide_eq_true within

end screen

namespace Sample

/-- A tab that one page shows, five days on and without that day. -/
def laterPage (w : BackendWorld) (filter : MomentFilter) : Option MomentListData :=
  (alone 9 (fun _ => input (days 5) 0) (Endpoint.listMoments epoch seoulDate 1 filter true single none) 0
    w).result.toOption.filter
    fun data => ¬ data.hasNext

theorem follows_later {w : BackendWorld} {filter : MomentFilter} {data : MomentListData}
    (found : laterPage w filter = some data) : Follows (Endpoint.listMoments epoch seoulDate 1 filter true)
      MomentListData.toPaged none [⟨single,9,fun _ => input (days 5) 0,w,data⟩] := by
  obtain ⟨answered,ends⟩ := Option.filter_eq_some_iff.mp found
  refine .last ?_ (Bool.not_eq_true _ ▸ of_decide_eq_true ends)
  unfold Visit.answers
  cases ended : (alone 9 (fun _ => input (days 5) 0) (Endpoint.listMoments epoch seoulDate 1 filter true single none) 0
    w).result with
  | error error =>
    rw [ended] at answered
    cases answered
  | ok page =>
    rw [ended] at answered
    cases answered
    rfl

theorem laterTabs {w : BackendWorld} (passes : ∀ filter ∈ [MomentFilter.all,.status .searching,.status .matched,
    .status .expired,.hidden], (laterPage w filter).isSome) :
    ∃ tabs : Tabs, tabs.Read epoch seoulDate 1 true w.db 5 := by
  obtain ⟨all,found⟩ := Option.isSome_iff_exists.mp (passes .all (by simp))
  obtain ⟨searching,found₂⟩ := Option.isSome_iff_exists.mp (passes (.status .searching) (by simp))
  obtain ⟨matched,found₃⟩ := Option.isSome_iff_exists.mp (passes (.status .matched) (by simp))
  obtain ⟨expired,found₄⟩ := Option.isSome_iff_exists.mp (passes (.status .expired) (by simp))
  obtain ⟨hidden,found₅⟩ := Option.isSome_iff_exists.mp (passes .hidden (by simp))
  refine ⟨⟨_,_,_,_,_⟩,follows_later found,follows_later found₂,follows_later found₃,follows_later found₄,
    follows_later found₅,fun visit member => ?_⟩
  simp only [Tabs.visits,List.mem_append,List.mem_singleton] at member
  rcases member with (((rfl | rfl) | rfl) | rfl) | rfl <;> exact ⟨rfl,rfl⟩

def laterHome (w : BackendWorld) : Except Exc HomeData :=
  (alone 9 (fun _ => input (days 5) 0) (getHome seoulDate 1) 0 w).result

end Sample

theorem homeScreen_matched : ∃ (s : Backend) (tabs : Tabs) (data : HomeData),
    Reachable Sample.settings Rat.sqrt Sample.users s ∧ tabs.Read Sample.epoch Sample.seoulDate 1 true s.db 5 ∧
    Sample.laterHome s.world = .ok data ∧ data.newMatch.map HomeMatchSummary.photoId = some 11 ∧
    11 ∈ photosOf tabs.matched := by
  obtain ⟨s,_,reachable,passed⟩ := Sample.reached Sample.matched
    (fun s => decide (∀ filter ∈ [MomentFilter.all,.status .searching,.status .matched,.status .expired,.hidden],
      (Sample.laterPage s.world filter).isSome) && (Sample.laterHome s.world).toOption.any fun data =>
        data.newMatch.map HomeMatchSummary.photoId = some 11) (by decide +kernel)
  obtain ⟨pages,shown⟩ := (Bool.and_eq_true _ _).mp passed
  obtain ⟨tabs,read⟩ := Sample.laterTabs (of_decide_eq_true pages)
  cases answered : Sample.laterHome s.world with
  | error error =>
    rw [answered] at shown
    cases shown
  | ok data =>
    rw [answered] at shown
    have eleven := of_decide_eq_true shown
    obtain ⟨match_,new,photo⟩ := Option.map_eq_some_iff.mp eleven
    have home : (alone 9 (fun _ => Sample.input (days 5) 0) (getHome Sample.seoulDate 1) 0
      s.world).result = .ok data := answered
    obtain ⟨next,count,asked,_⟩ := (unviewedMatches reachable.lived 1 5).1 9 fun _ => Sample.input (days 5) 0
    have agrees := homeScreen reachable.lived read home asked
    exact ⟨s,tabs,data,reachable,read,answered,eleven,photo ▸ agrees.matched match_ new⟩

end Dalm
