import Dalm.Availability
import Dalm.MatchSides

/-! GET /v1/photos/{photo_id}, and how what it shows agrees with the list of moments and with the detail
of the match. -/
namespace Dalm
open Relational Txn HomeRepository

def photoNotYours : Exc := .api ⟨403,.photoNotOwned,"본인의 사진만 조회할 수 있습니다."⟩

def todayPhoto (photo : Photo) (card : Option MatchCardRow) (remaining : Option Int) : TodayPhoto where
  id := photo.id
  status := photo.status
  imageUrl := photo.imageUrl
  aiTitle := photo.aiTitle
  registeredAt := photo.registeredAt
  searchExpiresAt := photo.searchExpiresAt
  remainingDays := remaining
  rejection := PhotoRejection.fromPhotoStatus photo
  matchId := card.map MatchCardRow.matchId
  partnerImageUrl := card.map MatchCardRow.partnerImageUrl
  matchedAt := card.map MatchCardRow.matchedAt

/-- GET /v1/photos/{photo_id} -/
def showPhoto (userId photoId : UUID) : App TodayPhoto := do
  let photo ← getPhoto photoId
  match photo with
  | none => throw photoNotFound
  | some photo =>
    if photo.status = .deleted then
      throw photoNotFound
    else if photo.userId ≠ userId then
      throw photoNotYours
    else
      let card ← matchCard userId photo
      let remaining ← daysLeft photo
      return todayPhoto photo card remaining

/-- A photo is shown with what its status calls for and nothing else, as the other views show it. -/
structure PhotoShown (w : BackendWorld) (photo : Photo) (shown : TodayPhoto) : Prop where
  same : shown.id = photo.id ∧ shown.status = photo.status
  matched : photo.status = .matched ↔ shown.matchId.isSome
  card : shown.partnerImageUrl.isSome = shown.matchId.isSome ∧ shown.matchedAt.isSome = shown.matchId.isSome
  searching : photo.status = .searching ↔ shown.remainingDays.isSome
  days : ∀ left ∈ shown.remainingDays, 0 ≤ left ∧ left ≤ 7
  rejected : photo.status = .rejected ↔ shown.rejection.isSome
  reason : ∀ rejection ∈ shown.rejection, rejection.code ≠ "" ∧ rejection.message ≠ ""
  detail : ∀ m ∈ shown.matchId, ∃ detail, ShownDetail w m photo.userId (some detail) ∧
    detail.matchId = m ∧ detail.myPhotoId = photo.id ∧ detail.myDeleted = false ∧
    shown.partnerImageUrl = some detail.partnerImageUrl ∧ shown.matchedAt = some detail.matchedAt
  moment : ∀ (chosen : MomentQuery) size cursor t inputs n rows, chosen.userId = photo.userId →
    (alone t inputs (listMoments chosen size cursor) n w).result = .ok rows →
    ∀ row ∈ rows, row.photoId = photo.id → row.imageUrl = shown.imageUrl ∧ row.status = shown.status ∧
      row.registeredAt = shown.registeredAt ∧ row.searchExpiresAt = shown.searchExpiresAt ∧
      row.matchId = shown.matchId ∧ row.matchedAt = shown.matchedAt

section views
variable {settings : Settings} {w : BackendWorld} {photo : Photo} {t : Nat} {inputs : Nat → Input} {n : Nat}

theorem orElse_ne_empty {value : Option String} {default_ : String} (given : default_ ≠ "") :
    orElse value default_ ≠ "" := by
  unfold orElse
  split
  next => exact given
  next text =>
    split
    next => exact given
    next other => exact other

theorem remainingDays_mem (expiresAt : Option Time) (now : Time) :
    ∀ left ∈ remainingDays expiresAt now, 0 ≤ left ∧ left ≤ 7 := by
  intro left shown
  obtain ⟨at_,_,rfl⟩ := Option.map_eq_some_iff.mp shown
  omega

/-- A matched photo has its seat in its match. -/
theorem seated_of_matched (inv : Inv settings w) (stored : w.db.photos.get? photo.id = some photo)
    (matched : photo.status = .matched) : ∃ m match_ mine partner, mine.1.userId = photo.userId ∧
      mine.2 = photo ∧ Seated w.db m mine partner ∧ w.db.matches_.get? m = some match_ := by
  obtain ⟨m,u,row,found,used⟩ := inv.matches_.matched _ photo stored matched
  obtain ⟨there,other,stored',owner,_⟩ := inv.matches_.participant m u row found
  rw [used,stored] at stored'
  cases Option.some.inj stored'
  subst owner
  obtain ⟨match_,present⟩ := Option.isSome_iff_exists.mp there
  obtain ⟨mine,partner,same,seated⟩ := seated_of_participant inv (Option.isSome_iff_exists.mpr ⟨row,found⟩)
  have rows := Option.some.inj ((same ▸ seated.mineRow).symm.trans found)
  have image := seated.minePhoto
  rw [rows,used,stored] at image
  exact ⟨m,match_,mine,partner,same,(Option.some.inj image).symm,seated,present⟩

/-- The card of a matched photo: its match, and the photo across from it. -/
theorem Seated.alone_matchCard {m : UUID} {match_ : Match} {mine partner : MatchParticipant × Photo}
    (seated : Seated w.db m mine partner) (inv : Inv settings w)
    (present : w.db.matches_.get? m = some match_) (matched : mine.2.status = .matched) :
    alone t inputs (matchCard mine.1.userId mine.2) n w = ⟨.ok (some ⟨match_.id,mine.2.id,
      mine.2.imageUrl,partner.2.imageUrl,match_.explanation,match_.matchedAt⟩),n + 1,w⟩ := by
  obtain ⟨other,card⟩ := seated.cardColumns_eq inv
  have joined : (⟨other,mine.1,mine.2,partner.1,partner.2⟩ : CardColumns) ∈ cardColumns mine.1.userId w.db :=
    List.mem_of_mem_filter (by rw [card]; exact List.mem_singleton_self _)
  have here : mine.1.matchId = m := congrArg Prod.fst (Table.key_of_get? seated.mineRow)
  have same : other = match_ := by
    simp only [cardColumns,List.bind_eq_flatMap,List.mem_flatMap,List.pure_def,List.mem_singleton,
      Option.mem_toList,CardColumns.mk.injEq] at joined
    obtain ⟨_,_,found,there,_,_,_,_,_,_,rfl,rfl,_⟩ := joined
    rw [here,present] at there
    exact (Option.some.inj there).symm
  subst same
  rw [matchCard,if_pos matched,getMatchCardForPhoto,alone_query,card]
  rfl

/-- A listed moment copies its photo's columns, and tells of the match of its participant. -/
theorem momentRow_columns {userId : UUID} {row : MomentColumns} {made : MomentRow}
    (shown : momentRow userId row = .ok made) : made.photoId = row.photo.id ∧
      made.imageUrl = row.photo.imageUrl ∧ made.status = row.photo.status ∧
      made.registeredAt = row.photo.registeredAt ∧ made.searchExpiresAt = row.photo.searchExpiresAt ∧
      made.matchId = row.participant.map MatchParticipant.matchId ∧
      made.matchedAt = row.match_.map Match.matchedAt := by
  unfold momentRow at shown
  cases permission : momentPermission userId row with
  | error error =>
    rw [permission] at shown
    cases shown
  | ok permission' =>
    rw [permission] at shown
    cases shown
    exact ⟨rfl,rfl,rfl,rfl,rfl,rfl,rfl⟩

/-- The rows a page of moments was made of. -/
theorem mem_listMoments {chosen : MomentQuery} {size : Nat} {cursor : Option Cursor} {rows : List MomentRow}
    {made : MomentRow} (answered : (alone t inputs (listMoments chosen size cursor) n w).result = .ok rows)
    (member : made ∈ rows) : ∃ photo row, w.db.photos.get? photo.id = some photo ∧
      row ∈ momentColumns chosen.userId w.db photo ∧ momentRow chosen.userId row = .ok made := by
  rw [alone_listMoments] at answered
  have from_ : ∀ {columns : List MomentColumns} {rows : List MomentRow},
      columns.mapM (momentRow chosen.userId) = .ok rows → made ∈ rows →
        ∃ row ∈ columns, momentRow chosen.userId row = .ok made := by
    intro columns
    induction columns with
    | nil =>
      intro rows same inside
      cases same
      cases inside
    | cons column columns ih =>
      intro rows same inside
      rw [List.mapM_cons] at same
      cases first : momentRow chosen.userId column with
      | error error =>
        rw [first] at same
        cases same
      | ok head =>
        cases rest : columns.mapM (momentRow chosen.userId) with
        | error error =>
          rw [first,rest] at same
          cases same
        | ok tail =>
          rw [first,rest] at same
          cases same
          rcases List.mem_cons.mp inside with rfl | inside
          · exact ⟨column,List.mem_cons_self,first⟩
          · obtain ⟨row,there,shown⟩ := ih rest inside
            exact ⟨row,List.mem_cons_of_mem _ there,shown⟩
  obtain ⟨row,inside,shown⟩ := from_ answered member
  obtain ⟨photo,there,_,joined,_⟩ := mem_momentRows.mp (List.mem_of_mem_take inside)
  exact ⟨photo,row,Table.get?_of_mem there,joined,shown⟩

/-- What is shown of a photo that has its seat in a match, and of one that has none. -/
inductive Seat (w : BackendWorld) (photo : Photo) : Option (UUID × Match × Photo) → Prop where
  | seated {m : UUID} {match_ : Match} {mine partner : MatchParticipant × Photo}
      (own : mine.1.userId = photo.userId) (same : mine.2 = photo) (seated : Seated w.db m mine partner)
      (present : w.db.matches_.get? m = some match_) (matched : photo.status = .matched) :
    Seat w photo (some (m,match_,partner.2))
  | free (unmatched : photo.status ≠ .matched) : Seat w photo none

theorem seat_of_photo (inv : Inv settings w) (stored : w.db.photos.get? photo.id = some photo) :
    ∃ seat, Seat w photo seat := by
  by_cases matched : photo.status = .matched
  · obtain ⟨m,match_,mine,partner,own,same,seated,present⟩ := seated_of_matched inv stored matched
    exact ⟨_,.seated own same seated present matched⟩
  · exact ⟨none,.free matched⟩

theorem Seat.alone_matchCard {seat : Option (UUID × Match × Photo)} (seat_ : Seat w photo seat)
    (inv : Inv settings w) (t : Nat) (inputs : Nat → Input) (n : Nat) :
    ∃ k, alone t inputs (matchCard photo.userId photo) n w =
      ⟨.ok (seat.map fun seat => ⟨seat.2.1.id,photo.id,photo.imageUrl,seat.2.2.imageUrl,
        seat.2.1.explanation,seat.2.1.matchedAt⟩),k,w⟩ := by
  cases seat_ with
  | seated own same seated present matched =>
    subst same
    rw [← own]
    exact ⟨_,seated.alone_matchCard inv present matched⟩
  | free unmatched =>
    rw [matchCard,if_neg unmatched]
    exact ⟨n,rfl⟩

/-- A moment of the photo tells of the same match. -/
theorem Seat.moment {seat : Option (UUID × Match × Photo)} {row : MomentColumns} (seat_ : Seat w photo seat)
    (inv : Inv settings w) (stored : w.db.photos.get? photo.id = some photo)
    (joined : row ∈ momentColumns photo.userId w.db photo) : row.photo = photo ∧
      row.participant.map MatchParticipant.matchId = seat.map (fun seat => seat.2.1.id) ∧
      row.match_ = seat.map fun seat => seat.2.1 := by
  have at_ : row.photo = photo := by
    have inside := joined
    simp only [momentColumns,List.bind_eq_flatMap,List.mem_flatMap,List.pure_def,List.mem_singleton] at inside
    obtain ⟨_,_,_,_,rfl⟩ := inside
    rfl
  cases seat_ with
  | @seated m match_ mine partner own same seated present matched =>
    subst same
    have only := seated.momentColumns_eq inv
    rw [own] at only
    rw [only] at joined
    cases List.mem_singleton.mp joined
    have key : match_.id = m := Table.key_of_get? present
    have here : mine.1.matchId = m := congrArg Prod.fst (Table.key_of_get? seated.mineRow)
    exact ⟨rfl,congrArg some (here.trans key.symm),present⟩
  | free unmatched =>
    rcases momentColumns_cases inv stored joined with none_ | ⟨m,mine,partner,own,seated,same,rfl⟩
    · refine ⟨at_,by rw [none_]; rfl,?_⟩
      simp only [momentColumns,List.bind_eq_flatMap,List.mem_flatMap,List.pure_def,List.mem_singleton] at joined
      obtain ⟨participant,_,_,_,rfl⟩ := joined
      dsimp only at none_
      rw [none_]
      rfl
    · obtain ⟨_,other,found,_,status⟩ := inv.matches_.participant _ _ _ seated.mineRow
      cases seated.minePhoto.symm.trans found
      exact absurd (same ▸ status) unmatched

theorem alone_daysLeft (inputs : Nat → Input) (photo : Photo) : ∃ k left,
    alone t inputs (daysLeft photo) n w = ⟨.ok left,k,w⟩ ∧
      left = if photo.status = .searching then remainingDays photo.searchExpiresAt (inputs n).now else none := by
  unfold daysLeft
  split
  · exact ⟨n + 1,_,rfl,rfl⟩
  · exact ⟨n,none,rfl,rfl⟩

theorem Seat.detail {settings : Settings} {w : BackendWorld} {photo partner : Photo} {m : UUID} {match_ : Match}
    (seat : Seat w photo (some (m,match_,partner))) (inv : Inv settings w) (kept : photo.status ≠ .deleted)
    (stored : w.db.photos.get? photo.id = some photo) : ∃ detail, ShownDetail w match_.id photo.userId
      (some detail) ∧ detail.matchId = match_.id ∧ detail.myPhotoId = photo.id ∧ detail.myDeleted = false ∧
      detail.partnerImageUrl = partner.imageUrl ∧ detail.matchedAt = match_.matchedAt := by
  have alive := (inv.photos _ _ stored).deleted.mpr kept
  cases seat with
  | @seated _ _ mine partner own same seated present matched =>
    have known := (inv.onboarded (Option.isSome_iff_exists.mpr ⟨_,seated.partnerRow⟩)).known
    obtain ⟨user,there⟩ := Option.isSome_iff_exists.mp known
    have key : match_.id = m := Table.key_of_get? present
    have shown := seated.shownDetail present there
    rw [own] at shown
    refine ⟨_,key ▸ shown,rfl,congrArg Photo.id same,?_,rfl,rfl⟩
    change mine.2.deletedAt.isSome = false
    rw [same,alive]
    rfl

end views

section showing
variable {settings : Settings} {w : BackendWorld} {photo : Photo}

/-- What is shown of a photo, from its seat and the time left. -/
def shownPhoto (photo : Photo) (seat : Option (UUID × Match × Photo)) (left : Option Int) : TodayPhoto :=
  todayPhoto photo (seat.map fun seat => ⟨seat.2.1.id,photo.id,photo.imageUrl,seat.2.2.imageUrl,
    seat.2.1.explanation,seat.2.1.matchedAt⟩) left

theorem Seat.isSome_iff {seat : Option (UUID × Match × Photo)} (seat_ : Seat w photo seat) :
    photo.status = .matched ↔ seat.isSome := by
  cases seat_ with
  | seated _ _ _ _ matched => simp [matched]
  | free unmatched => simp [unmatched]

theorem photoShown {seat : Option (UUID × Match × Photo)} {now : Time} (seat_ : Seat w photo seat)
    (inv : Inv settings w) (stored : w.db.photos.get? photo.id = some photo) (kept : photo.status ≠ .deleted) :
    PhotoShown w photo (shownPhoto photo seat
      (if photo.status = .searching then remainingDays photo.searchExpiresAt now else none)) where
  same := ⟨rfl,rfl⟩
  matched := by
    rw [seat_.isSome_iff]
    simp [shownPhoto,todayPhoto]
  card := ⟨by simp [shownPhoto,todayPhoto],by simp [shownPhoto,todayPhoto]⟩
  searching := by
    by_cases searching : photo.status = .searching
    · have period := (inv.photos _ _ stored).period (by rw [searching]; rfl)
      simp [shownPhoto,todayPhoto,searching,remainingDays,period]
    · simp [shownPhoto,todayPhoto,searching]
  days left inside := by
    by_cases searching : photo.status = .searching
    · exact remainingDays_mem _ now left (by simpa [shownPhoto,todayPhoto,searching] using inside)
    · simp [shownPhoto,todayPhoto,searching] at inside
  rejected := by
    by_cases rejected : photo.status = .rejected <;>
      simp [shownPhoto,todayPhoto,PhotoRejection.fromPhotoStatus,rejected]
  reason rejection inside := by
    by_cases rejected : photo.status = .rejected
    · simp only [shownPhoto,todayPhoto,PhotoRejection.fromPhotoStatus,rejected,if_true,Option.mem_def,
        Option.some.injEq] at inside
      subst inside
      exact ⟨orElse_ne_empty (by decide),orElse_ne_empty (by decide)⟩
    · simp [shownPhoto,todayPhoto,PhotoRejection.fromPhotoStatus,rejected] at inside
  detail m inside := by
    cases seat with
    | none => cases inside
    | some found => ?_
    obtain ⟨_,match_,partner⟩ := found
    cases inside
    obtain ⟨detail,shown,one,two,three,four,five⟩ := seat_.detail inv kept stored
    exact ⟨detail,shown,one,two,three,congrArg some four.symm,congrArg some five.symm⟩
  moment chosen size cursor t inputs n rows own answered row member same := by
    obtain ⟨other,columns,there,joined,made⟩ := mem_listMoments answered member
    obtain ⟨id,image,status,registered,period,matchId,matchedAt⟩ := momentRow_columns made
    rw [own] at joined
    -- Only the columns of this photo carry its id.
    have at_ : columns.photo = other := by
      have inside := joined
      simp only [momentColumns,List.bind_eq_flatMap,List.mem_flatMap,List.pure_def,List.mem_singleton] at inside
      obtain ⟨_,_,_,_,rfl⟩ := inside
      rfl
    have this_ : other = photo := by
      rw [same,at_] at id
      rw [← id,stored] at there
      exact (Option.some.inj there).symm
    subst this_
    obtain ⟨_,seatId,seatMatch⟩ := seat_.moment inv stored joined
    rw [at_] at image status registered period
    rw [seatId] at matchId
    rw [seatMatch] at matchedAt
    cases seat <;> exact ⟨image,status,registered,period,matchId,matchedAt⟩

/-- His own photo is shown to a user from its seat. -/
theorem alone_showPhoto (inv : Inv settings w) (stored : w.db.photos.get? photo.id = some photo)
    (kept : photo.status ≠ .deleted) (t : Nat) (inputs : Nat → Input) (n : Nat) : ∃ shown k,
    alone t inputs (showPhoto photo.userId photo.id) n w = ⟨.ok shown,k,w⟩ ∧ PhotoShown w photo shown := by
  obtain ⟨seat,seat_⟩ := seat_of_photo inv stored
  obtain ⟨k,card⟩ := seat_.alone_matchCard inv t inputs (n + 1)
  obtain ⟨l,left,remaining,rfl⟩ := alone_daysLeft inputs photo (t := t) (n := k) (w := w)
  refine ⟨shownPhoto photo seat
    (if photo.status = .searching then remainingDays photo.searchExpiresAt (inputs k).now else none),
    l,?_,photoShown seat_ inv stored kept⟩
  rw [showPhoto,getPhoto,alone_query,stored]
  dsimp only
  rw [if_neg kept,if_neg (not_not.mpr rfl),alone_bind,card]
  simp only [andThen]
  rw [alone_bind,remaining]
  rfl

end showing

/-- How a request for one photo is answered. -/
structure PhotoAnswered (w : BackendWorld) (userId photoId : UUID) (e : Ended Db Event Exc TodayPhoto) :
    Prop where
  world : e.world = w
  missing : (∀ photo, w.db.photos.get? photoId = some photo → photo.status = .deleted) →
    e.result = .error photoNotFound
  foreign : ∀ photo, w.db.photos.get? photoId = some photo → photo.status ≠ .deleted →
    photo.userId ≠ userId → e.result = .error photoNotYours
  own : ∀ photo, w.db.photos.get? photoId = some photo → photo.status ≠ .deleted →
    photo.userId = userId → ∃ shown, e.result = .ok shown ∧ PhotoShown w photo shown

/-- In every state a user is shown each photo of his that is not deleted, as the other views show it. -/
theorem photoViews {K : Type} [Field K] [LinearOrder K] [IsStrictOrderedRing K] [FloorRing K]
    {settings : Settings} {sqrt : ℚ → K} {users : Table User.id} {s : Backend}
    (reachable : Reachable settings sqrt users s) (userId photoId : UUID) (t : Nat) (inputs : Nat → Input)
    (n : Nat) : PhotoAnswered s.world userId photoId (alone t inputs (showPhoto userId photoId) n s.world) := by
  cases found : s.world.db.photos.get? photoId with
  | none =>
    rw [showPhoto,getPhoto,alone_query,found]
    refine ⟨rfl,fun _ => rfl,?_,?_⟩ <;>
    · intro photo there
      cases found.symm.trans there
  | some photo =>
    have key : photo.id = photoId := Table.key_of_get? found
    by_cases shown : photo.status ≠ .deleted ∧ photo.userId = userId
    · obtain ⟨kept,rfl⟩ := shown
      subst key
      obtain ⟨shown,k,answered,views⟩ := alone_showPhoto reachable.inv found kept t inputs n
      rw [answered]
      refine ⟨rfl,fun gone => absurd (gone photo found) kept,?_,?_⟩
      · intro other there _ foreign
        cases found.symm.trans there
        exact absurd rfl foreign
      · intro other there _ _
        cases found.symm.trans there
        exact ⟨shown,rfl,views⟩
    · rw [showPhoto,getPhoto,alone_query,found]
      dsimp only
      by_cases deleted : photo.status = .deleted
      · rw [if_pos deleted]
        refine ⟨rfl,fun _ => rfl,?_,?_⟩ <;>
        · intro other there kept
          cases found.symm.trans there
          exact absurd deleted kept
      · have foreign : photo.userId ≠ userId := fun own => shown ⟨deleted,own⟩
        rw [if_neg deleted,if_pos foreign]
        refine ⟨rfl,fun gone => absurd (gone photo found) deleted,fun _ _ _ _ => rfl,?_⟩
        intro other there _ own
        cases found.symm.trans there
        exact absurd own foreign

/-- The photo of the second user of a match. -/
theorem photoViews_matched : ∃ (s : Backend) (photo : Photo), photo.status = .matched ∧
    ∀ t inputs n, PhotoAnswered s.world photo.userId photo.id
      (alone t inputs (showPhoto photo.userId photo.id) n s.world) := by
  obtain ⟨s,_,reachable,passed⟩ := Sample.reached Sample.matched
    (fun s => (s.db.photos.get? 12).any fun photo => photo.status = .matched) (by decide +kernel)
  obtain ⟨photo,_,matched⟩ := (Option.any_eq_true _ _).mp passed
  exact ⟨s,photo,of_decide_eq_true matched,photoViews reachable photo.userId photo.id⟩

end Dalm
