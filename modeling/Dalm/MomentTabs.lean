import Dalm.Lived

/-! The tabs of the moments: ALL beside SEARCHING, MATCHED, EXPIRED and HIDDEN. -/
namespace Dalm
open Relational Txn HomeRepository

section lists
variable {α : Type}

theorem eq_of_decreasing {first second : List Cursor}
    (one : first.Pairwise fun earlier later => (toLex later : Place) < toLex earlier)
    (two : second.Pairwise fun earlier later => (toLex later : Place) < toLex earlier)
    (same : ∀ place, place ∈ first ↔ place ∈ second) : first = second := by
  have distinct : ∀ {places : List Cursor}, (places.Pairwise fun earlier later =>
      (toLex later : Place) < toLex earlier) → places.Nodup := fun sorted =>
    sorted.imp fun less equal => by
      rw [equal] at less
      exact lt_irrefl _ less
  refine List.Perm.eq_of_pairwise ?_ one two ((List.perm_ext_iff_of_nodup (distinct one) (distinct two)).mpr same)
  exact fun a b _ _ less more => absurd (less.trans more) (lt_irrefl _)

theorem filter_three {p q r : α → Bool} (rows : List α) (apart : ∀ row, q row = true → p row = false)
    (rest : ∀ row ∈ rows, r row = (!p row && !q row)) :
    (rows.filter p ++ rows.filter q ++ rows.filter r).Perm rows := by
  have last : (rows.filter fun row => !p row).filter (fun row => !q row) = rows.filter r := by
    rw [List.filter_filter]
    refine List.filter_congr fun row member => ?_
    rw [rest row member,Bool.and_comm]
  have middle : (rows.filter fun row => !p row).filter q = rows.filter q := by
    rw [List.filter_filter]
    refine List.filter_congr fun row _ => ?_
    cases chosen : q row with
    | false => rfl
    | true => rw [apart row chosen]; rfl
  have split := List.filter_append_perm q (rows.filter fun row => !p row)
  rw [middle,last] at split
  rw [List.append_assoc]
  exact (split.append_left _).trans (List.filter_append_perm p rows)

theorem map_filter_flatMap {β : Type} (p : α → Bool) (f : α → β) (rows : List α) :
    (rows.filter p).map f = rows.flatMap fun row => if p row then [f row] else [] := by
  induction rows with
  | nil => rfl
  | cons row rows ih =>
    rw [List.flatMap_cons,← ih,List.filter_cons]
    split <;> simp

end lists

section rows
variable {db : Db} {userId : UUID} {today : Date} {excludeToday : Bool} {filter : MomentFilter}

/-- The moments of a user, as one tab lists them. -/
def tabRows (userId : UUID) (today : Date) (excludeToday : Bool) (db : Db) (filter : MomentFilter) :
    List MomentColumns := momentRows ⟨userId,filter,today,excludeToday⟩ none db

theorem tabRows_status (wanted : PhotoStatus) : tabRows userId today excludeToday db (.status wanted) =
    (tabRows userId today excludeToday db .all).filter fun row => row.photo.status = wanted := by
  unfold tabRows momentRows
  rw [List.filter_flatMap]
  simp only [List.filter_filter]
  congr 1
  funext photo
  refine List.filter_congr fun row _ => ?_
  simp [MomentFilter.accepts]

theorem tabRows_sorted (paired : Paired db) : ((tabRows userId today excludeToday db filter).map fun row =>
    (row.photo.registeredAt,row.photo.id)).Pairwise fun earlier later =>
      (toLex later : Place) < toLex earlier :=
  List.pairwise_map.mpr (momentRows_ordered _ _ paired)

theorem mem_tabRows {row : MomentColumns} : row ∈ tabRows userId today excludeToday db filter ↔
    ∃ photo ∈ db.photos.rows, (photo.userId = userId ∧ photo.deletedAt = none ∧
      (excludeToday → photo.registeredDate ≠ today)) ∧ row ∈ momentColumns userId db photo ∧
        filter.accepts row = true := by
  refine mem_momentRows.trans ?_
  simp [precedes]

theorem tabRows_same (paired : Paired db) {filter' : MomentFilter} {first second : MomentColumns}
    (one : first ∈ tabRows userId today excludeToday db filter)
    (two : second ∈ tabRows userId today excludeToday db filter')
    (same : first.photo.id = second.photo.id) : first = second := by
  obtain ⟨photo,there,_,joined,_⟩ := mem_tabRows.mp one
  obtain ⟨photo',there',_,joined',_⟩ := mem_tabRows.mp two
  rw [momentColumns_photo joined,momentColumns_photo joined'] at same
  cases List.inj_on_of_nodup_map db.photos.distinct there there' same
  have few := paired.momentColumns userId photo
  generalize momentColumns userId db photo = columns at joined joined' few
  match columns with
  | [] => cases joined
  | [_] => exact (List.mem_singleton.mp joined).trans (List.mem_singleton.mp joined').symm
  | _ :: _ :: _ => exact absurd few (by simp)

theorem tabRows_ids (paired : Paired db) :
    ((tabRows userId today excludeToday db filter).map fun row => row.photo.id).Nodup := by
  refine List.pairwise_map.mpr ((List.pairwise_map.mp (tabRows_sorted paired)).imp_of_mem ?_)
  intro earlier later one two less same
  rw [tabRows_same paired one two same] at less
  exact lt_irrefl _ less

/-- The statuses that are counted are those of the rows of the ALL tab. -/
theorem countedStatuses_perm (paired : Paired db) : (countedStatuses userId today excludeToday db).Perm
    ((tabRows userId today excludeToday db .all).map fun row => row.photo.status) := by
  have each : ∀ photo : Photo, ((momentColumns userId db photo).filter fun row =>
      MomentFilter.all.accepts row).map (fun row => row.photo.status) =
        (outer (db.participants.rows.filter fun row => row.photoId = photo.id ∧ row.userId = userId)).flatMap
          fun participant => if participant.bind MatchParticipant.hiddenAt = none then [photo.status] else [] := by
    intro photo
    rw [← momentColumns_participants paired userId photo,List.flatMap_map,map_filter_flatMap]
    refine List.flatMap_congr fun row member => ?_
    rw [momentColumns_photo member]
    simp [MomentFilter.accepts]
  unfold tabRows momentRows countedStatuses
  simp only [List.map_flatMap,each,List.bind_eq_flatMap]
  refine (List.Perm.flatMap_right _ ?_)
  simp only [precedes,and_true]
  exact (List.perm_insertionSort _ _).symm

/-- Every moment the ALL tab can show has one of the three statuses. -/
def Tabbed (userId : UUID) (today : Date) (excludeToday : Bool) (db : Db) : Prop :=
  ∀ photo ∈ db.photos.rows, photo.userId = userId → photo.deletedAt = none →
    (excludeToday → photo.registeredDate ≠ today) → (∀ seat ∈ db.participants.rows,
      seat.photoId = photo.id → seat.userId = userId → seat.hiddenAt = none) →
    photo.status = .searching ∨ photo.status = .matched ∨ photo.status = .expired

instance : Decidable (Tabbed userId today excludeToday db) :=
  inferInstanceAs (Decidable (∀ photo ∈ db.photos.rows, _))

theorem tabbed_iff (paired : Paired db) : Tabbed userId today excludeToday db ↔
    ∀ row ∈ tabRows userId today excludeToday db .all,
      row.photo.status = .searching ∨ row.photo.status = .matched ∨ row.photo.status = .expired := by
  constructor
  · intro tabbed row member
    obtain ⟨photo,there,⟨owner,kept,day⟩,joined,accepted⟩ := mem_tabRows.mp member
    have seated := momentColumns_participants paired userId photo
    have inside := List.mem_map_of_mem (f := MomentColumns.participant) joined
    rw [seated] at inside
    have shown : row.participant.bind MatchParticipant.hiddenAt = none := of_decide_eq_true accepted
    rw [momentColumns_photo joined]
    refine tabbed photo there owner kept day fun seat present same own => ?_
    have mine : seat ∈ db.participants.rows.filter fun row => row.photoId = photo.id ∧ row.userId = userId :=
      List.mem_filter.mpr ⟨present,by simp [same,own]⟩
    cases found : row.participant with
    | none =>
      rw [found] at inside
      exact absurd (none_mem_outer inside ▸ mine) List.not_mem_nil
    | some other =>
      rw [found] at inside shown
      obtain ⟨present',own'⟩ := List.mem_filter.mp (some_mem_outer.mp inside)
      rw [paired.seat seat present other present' (same.trans (of_decide_eq_true own').1.symm)]
      exact shown
  · intro each photo there owner kept day unhidden
    have seated := momentColumns_participants paired userId photo
    have some_ : momentColumns userId db photo ≠ [] := fun nothing => by
      rw [nothing] at seated
      exact outer_ne_nil _ seated.symm
    obtain ⟨row,joined⟩ := List.exists_mem_of_ne_nil _ some_
    have inside := List.mem_map_of_mem (f := MomentColumns.participant) joined
    rw [seated] at inside
    rw [← momentColumns_photo joined]
    refine each row (mem_tabRows.mpr ⟨photo,there,⟨owner,kept,day⟩,joined,decide_eq_true ?_⟩)
    cases found : row.participant with
    | none => rfl
    | some mine =>
      rw [found] at inside
      obtain ⟨present,own⟩ := List.mem_filter.mp (some_mem_outer.mp inside)
      obtain ⟨same,own⟩ := of_decide_eq_true own
      exact unhidden mine present same own

end rows

section tabs

/-- The photos that following a list shows, page after page. -/
def photosOf (visits : List (Visit MomentListData)) : List UUID :=
  visits.flatMap fun visit => visit.data.items.map MomentPhoto.photoId

/-- The visits that read a tab each. -/
structure Tabs where
  all : List (Visit MomentListData)
  searching : List (Visit MomentListData)
  matched : List (Visit MomentListData)
  expired : List (Visit MomentListData)
  hidden : List (Visit MomentListData)

def Tabs.visits (tabs : Tabs) : List (Visit MomentListData) :=
  tabs.all ++ tabs.searching ++ tabs.matched ++ tabs.expired ++ tabs.hidden

/-- Every tab is read to its end, all in one database and on one day. -/
structure Tabs.Read (service : Timestamps) (seoulDate : Time → Date) (userId : UUID) (excludeToday : Bool)
    (db : Db) (today : Date) (tabs : Tabs) : Prop where
  all : Follows (Endpoint.listMoments service seoulDate userId .all excludeToday)
    MomentListData.toPaged none tabs.all
  searching : Follows (Endpoint.listMoments service seoulDate userId (.status .searching) excludeToday)
    MomentListData.toPaged none tabs.searching
  matched : Follows (Endpoint.listMoments service seoulDate userId (.status .matched) excludeToday)
    MomentListData.toPaged none tabs.matched
  expired : Follows (Endpoint.listMoments service seoulDate userId (.status .expired) excludeToday)
    MomentListData.toPaged none tabs.expired
  hidden : Follows (Endpoint.listMoments service seoulDate userId .hidden excludeToday)
    MomentListData.toPaged none tabs.hidden
  still : ∀ visit ∈ tabs.visits, visit.world.db = db ∧ seoulDate (visit.inputs 0).now = today

/-- What the tabs have to do with each other. -/
structure Tabs.Agree (tabs : Tabs) : Prop where
  union : (photosOf tabs.all).Perm (photosOf tabs.searching ++ photosOf tabs.matched ++ photosOf tabs.expired)
  once : (photosOf tabs.all).Nodup
  ordered : ∀ tab ∈ [tabs.searching,tabs.matched,tabs.expired], (photosOf tab).Sublist (photosOf tabs.all)
  counts : ∀ visit ∈ tabs.visits, visit.data.searchingCount = (photosOf tabs.searching).length ∧
    visit.data.matchedCount = (photosOf tabs.matched).length ∧
    visit.data.expiredCount = (photosOf tabs.expired).length
  apart : (photosOf tabs.all).Disjoint (photosOf tabs.hidden)

variable {service : Timestamps} {seoulDate : Time → Date} {userId : UUID} {excludeToday : Bool} {db : Db}
  {today : Date} {filter : MomentFilter} {visits : List (Visit MomentListData)}

theorem Follows.photos (follows : Follows (Endpoint.listMoments service seoulDate userId filter excludeToday)
      MomentListData.toPaged none visits) (paired : Paired db)
    (still : ∀ visit ∈ visits, visit.world.db = db ∧ seoulDate (visit.inputs 0).now = today) :
    photosOf visits = (tabRows userId today excludeToday db filter).map fun row => row.photo.id := by
  have paginates : Paginates MomentListData.toPaged MomentPhoto.place (fun visit place => place ∈
      (momentRows ⟨userId,filter,seoulDate (visit.inputs 0).now,excludeToday⟩ none visit.world.db).map
        fun row => (row.photo.registeredAt,row.photo.id)) visits :=
    follows.paginates (fun _ _ _ => listMoments_shows) (fun visit member => (still visit member).1.symm ▸ paired)
      fun _ _ _ => Iff.rfl
  have shown : places MomentListData.toPaged MomentPhoto.place visits =
      (tabRows userId today excludeToday db filter).map fun row => (row.photo.registeredAt,row.photo.id) := by
    have matching : ∀ visit ∈ visits, (momentRows ⟨userId,filter,seoulDate (visit.inputs 0).now,excludeToday⟩ none
        visit.world.db) = tabRows userId today excludeToday db filter := fun visit member => by
      rw [(still visit member).1,(still visit member).2]
      rfl
    refine eq_of_decreasing paginates.decreasing (tabRows_sorted paired) fun place => ⟨fun inside => ?_,fun inside => ?_⟩
    · obtain ⟨visit,member,here⟩ := List.mem_flatMap.mp inside
      obtain ⟨item,listed,rfl⟩ := List.mem_map.mp here
      exact matching visit member ▸ paginates.matched visit member item listed
    · have once := paginates.once place fun visit member => by rwa [matching visit member]
      exact List.count_pos_iff.mp (by omega)
  have ids := congrArg (List.map Prod.snd) shown
  rw [List.map_map,places,List.map_flatMap] at ids
  simp only [List.map_map] at ids
  exact ids

theorem listMoments_counts {size : PageSize} {text : Option (List Char)} {t : Nat} {inputs : Nat → Input}
    {w : BackendWorld} {data : MomentListData}
    (answered : (alone t inputs (Endpoint.listMoments service seoulDate userId filter excludeToday size text)
      0 w).result = .ok data) : (data.searchingCount,data.matchedCount,data.expiredCount) =
        let statuses := countedStatuses userId (seoulDate (inputs 0).now) excludeToday w.db
        (statuses.count .searching,statuses.count .matched,statuses.count .expired) := by
  rw [Endpoint.listMoments,alone_supply] at answered
  obtain ⟨cursor,_,answered⟩ := orRaise_ok.mp answered
  obtain ⟨photos,_,_,listed,answered⟩ := alone_bind_ok answered
  obtain ⟨counts,_,_,counted,answered⟩ := alone_bind_ok answered
  obtain ⟨page,_,answered⟩ := orRaise_ok.mp answered
  obtain ⟨items,_,_,_,answered⟩ := alone_bind_ok answered
  cases answered
  rw [HomeRepository.listMoments,alone_query] at listed
  split at listed
  next rows made =>
    cases listed
    rw [countMoments,alone_query] at counted
    cases counted
    rfl
  next => cases listed

variable {tabs : Tabs}

/-- Every tab shows its rows. -/
structure Tabs.Rows (userId : UUID) (today : Date) (excludeToday : Bool) (db : Db) (tabs : Tabs) : Prop where
  all : photosOf tabs.all = (tabRows userId today excludeToday db .all).map fun row => row.photo.id
  searching : photosOf tabs.searching =
    (tabRows userId today excludeToday db (.status .searching)).map fun row => row.photo.id
  matched : photosOf tabs.matched =
    (tabRows userId today excludeToday db (.status .matched)).map fun row => row.photo.id
  expired : photosOf tabs.expired =
    (tabRows userId today excludeToday db (.status .expired)).map fun row => row.photo.id
  hidden : photosOf tabs.hidden = (tabRows userId today excludeToday db .hidden).map fun row => row.photo.id

theorem Tabs.Read.rows (read : tabs.Read service seoulDate userId excludeToday db today) (paired : Paired db) :
    tabs.Rows userId today excludeToday db where
  all := read.all.photos paired fun visit member => read.still visit (by simp [Tabs.visits,member])
  searching := read.searching.photos paired fun visit member => read.still visit (by simp [Tabs.visits,member])
  matched := read.matched.photos paired fun visit member => read.still visit (by simp [Tabs.visits,member])
  expired := read.expired.photos paired fun visit member => read.still visit (by simp [Tabs.visits,member])
  hidden := read.hidden.photos paired fun visit member => read.still visit (by simp [Tabs.visits,member])

theorem Follows.answered {endpoint : PageSize → Option (List Char) → App MomentListData}
    {page : MomentListData → Paged MomentPhoto} {text : Option (List Char)} {visit : Visit MomentListData}
    (follows : Follows endpoint page text visits) (member : visit ∈ visits) :
    ∃ text, visit.answers endpoint text := by
  induction follows with
  | last answered _ => exact ⟨_,List.mem_singleton.mp member ▸ answered⟩
  | next answered _ _ _ ih =>
    rcases List.mem_cons.mp member with rfl | rest
    · exact ⟨_,answered⟩
    · exact ih rest

theorem Tabs.Read.answered (read : tabs.Read service seoulDate userId excludeToday db today)
    {visit : Visit MomentListData} (member : visit ∈ tabs.visits) : ∃ filter text,
      visit.answers (Endpoint.listMoments service seoulDate userId filter excludeToday) text := by
  simp only [Tabs.visits,List.mem_append] at member
  rcases member with (((member | member) | member) | member) | member
  · exact ⟨_,read.all.answered member⟩
  · exact ⟨_,read.searching.answered member⟩
  · exact ⟨_,read.matched.answered member⟩
  · exact ⟨_,read.expired.answered member⟩
  · exact ⟨_,read.hidden.answered member⟩

theorem count_status (paired : Paired db) (wanted : PhotoStatus) :
    (countedStatuses userId today excludeToday db).count wanted =
      (tabRows userId today excludeToday db (.status wanted)).length := by
  rw [(countedStatuses_perm paired).count_eq,tabRows_status,← List.countP_eq_length_filter,List.count,
    List.countP_map]
  rfl

theorem Tabs.Read.counts (read : tabs.Read service seoulDate userId excludeToday db today) (paired : Paired db)
    {visit : Visit MomentListData} (member : visit ∈ tabs.visits) :
    visit.data.searchingCount = (photosOf tabs.searching).length ∧
      visit.data.matchedCount = (photosOf tabs.matched).length ∧
      visit.data.expiredCount = (photosOf tabs.expired).length := by
  obtain ⟨filter,text,answered⟩ := read.answered member
  have rows := read.rows paired
  have counts := listMoments_counts answered
  rw [(read.still visit member).1,(read.still visit member).2] at counts
  obtain ⟨searching,rest⟩ := Prod.mk.inj counts
  obtain ⟨matched,expired⟩ := Prod.mk.inj rest
  rw [searching,matched,expired,rows.searching,rows.matched,rows.expired]
  simp only [count_status paired,List.length_map,and_self]

theorem Tabs.Rows.sublist (rows : tabs.Rows userId today excludeToday db) :
    ∀ tab ∈ [tabs.searching,tabs.matched,tabs.expired], (photosOf tab).Sublist (photosOf tabs.all) := by
  have each : ∀ wanted, ((tabRows userId today excludeToday db (.status wanted)).map fun row =>
      row.photo.id).Sublist (photosOf tabs.all) := by
    intro wanted
    rw [rows.all,tabRows_status]
    exact List.filter_sublist.map _
  intro tab member
  simp only [List.mem_cons,List.not_mem_nil,or_false] at member
  rcases member with rfl | rfl | rfl
  · exact rows.searching ▸ each _
  · exact rows.matched ▸ each _
  · exact rows.expired ▸ each _

theorem Tabs.Rows.apart (rows : tabs.Rows userId today excludeToday db) (paired : Paired db) :
    (photosOf tabs.all).Disjoint (photosOf tabs.hidden) := by
  rw [rows.all,rows.hidden]
  intro id one two
  obtain ⟨row,shown,rfl⟩ := List.mem_map.mp one
  obtain ⟨row',hidden,same⟩ := List.mem_map.mp two
  cases tabRows_same paired hidden shown same
  obtain ⟨_,_,_,_,accepted⟩ := mem_tabRows.mp shown
  obtain ⟨_,_,_,_,accepted'⟩ := mem_tabRows.mp hidden
  have none_ : row.participant.bind MatchParticipant.hiddenAt = none := of_decide_eq_true accepted
  simp only [MomentFilter.accepts,none_] at accepted'
  cases accepted'

theorem Tabs.Rows.union_iff (rows : tabs.Rows userId today excludeToday db) (paired : Paired db) :
    (photosOf tabs.all).Perm (photosOf tabs.searching ++ photosOf tabs.matched ++ photosOf tabs.expired) ↔
      Tabbed userId today excludeToday db := by
  rw [rows.all,rows.searching,rows.matched,rows.expired,tabbed_iff paired,← List.map_append,← List.map_append]
  constructor
  · intro perm row member
    obtain ⟨row',listed,same⟩ := List.mem_map.mp (perm.mem_iff.mp (List.mem_map_of_mem member))
    simp only [List.mem_append,tabRows_status,List.mem_filter,decide_eq_true_eq] at listed
    rcases listed with (⟨there,status⟩ | ⟨there,status⟩) | ⟨there,status⟩ <;>
      rw [tabRows_same paired member there same.symm,status] <;> simp
  · intro tabbed
    simp only [tabRows_status]
    refine ((filter_three _ (fun row chosen => ?_) fun row member => ?_).map _).symm
    · rw [decide_eq_true_eq] at chosen
      rw [chosen]
      rfl
    · rcases tabbed row member with status | status | status <;> rw [status] <;> rfl

/-- The ALL tab is the three tabs together exactly when each moment that it can show has one of the three
statuses; what is still validated or was rejected stands in no other tab. -/
theorem momentTabs {K : Type} [Field K] [LinearOrder K] [IsStrictOrderedRing K] [FloorRing K]
    {settings : Settings} {sqrt : ℚ → K} {users : Table User.id} (lived : Lived settings sqrt users db)
    (read : tabs.Read service seoulDate userId excludeToday db today) :
    tabs.Agree ↔ Tabbed userId today excludeToday db := by
  have paired := lived.paired
  have rows := read.rows paired
  constructor
  · exact fun agree => (rows.union_iff paired).mp agree.union
  · intro tabbed
    refine ⟨(rows.union_iff paired).mpr tabbed,?_,rows.sublist,fun visit member => read.counts paired member,
      rows.apart paired⟩
    rw [rows.all]
    exact tabRows_ids paired

end tabs

namespace Sample

def tabAnswer (w : BackendWorld) (filter : MomentFilter) : Except Exc MomentListData :=
  (alone 9 (fun _ => input 9 0) (Endpoint.listMoments epoch (fun _ => 0) 1 filter false single none) 0 w).result

/-- One page shows the whole tab. -/
def showsAll (w : BackendWorld) (filter : MomentFilter) (photos : List UUID) : Bool :=
  (tabAnswer w filter).toOption.any fun data => data.items.map MomentPhoto.photoId = photos ∧ ¬ data.hasNext

theorem followed_of {w : BackendWorld} {filter : MomentFilter} {photos : List UUID}
    (passes : showsAll w filter photos = true) : ∃ visits, Follows (Endpoint.listMoments epoch (fun _ => 0) 1
      filter false) MomentListData.toPaged none visits ∧ photosOf visits = photos ∧
      ∀ visit ∈ visits, visit.world.db = w.db ∧ (0 : Date) = 0 := by
  obtain ⟨data,answered,shown⟩ := (Option.any_eq_true _ _).mp passes
  obtain ⟨items,ends⟩ := of_decide_eq_true shown
  cases ended : tabAnswer w filter with
  | error error =>
    rw [ended] at answered
    cases answered
  | ok found =>
    rw [ended] at answered
    cases answered
    refine ⟨[⟨single,9,fun _ => input 9 0,w,data⟩],.last ended (Bool.not_eq_true _ ▸ ends),?_,?_⟩
    · rw [photosOf,List.flatMap_singleton]
      exact items
    · intro visit member
      rw [List.mem_singleton.mp member]
      exact ⟨rfl,rfl⟩

/-- What each tab shows. -/
def showsTabs (w : BackendWorld) (all searching matched expired hidden : List UUID) : Bool :=
  showsAll w .all all && showsAll w (.status .searching) searching && showsAll w (.status .matched) matched &&
    showsAll w (.status .expired) expired && showsAll w .hidden hidden

theorem tabs_of {w : BackendWorld} {all searching matched expired hidden : List UUID}
    (passes : showsTabs w all searching matched expired hidden = true) : ∃ tabs : Tabs,
      tabs.Read epoch (fun _ => 0) 1 false w.db 0 ∧ photosOf tabs.all = all ∧
      photosOf tabs.searching = searching ∧ photosOf tabs.matched = matched ∧
      photosOf tabs.expired = expired := by
  simp only [showsTabs,Bool.and_eq_true] at passes
  obtain ⟨⟨⟨⟨one,two⟩,three⟩,four⟩,five⟩ := passes
  obtain ⟨all,reads,shows_,still⟩ := followed_of one
  obtain ⟨searching,reads',shows',still'⟩ := followed_of two
  obtain ⟨matched,reads₃,shows₃,still₃⟩ := followed_of three
  obtain ⟨expired,reads₄,shows₄,still₄⟩ := followed_of four
  obtain ⟨hidden,reads₅,_,still₅⟩ := followed_of five
  refine ⟨⟨all,searching,matched,expired,hidden⟩,⟨reads,reads',reads₃,reads₄,reads₅,?_⟩,
    shows_,shows',shows₃,shows₄⟩
  intro visit member
  simp only [Tabs.visits,List.mem_append] at member
  rcases member with (((member | member) | member) | member) | member
  · exact still visit member
  · exact still' visit member
  · exact still₃ visit member
  · exact still₄ visit member
  · exact still₅ visit member

end Sample

theorem momentTabs_matched : ∃ (s : Backend) (tabs : Tabs), Reachable Sample.settings Rat.sqrt Sample.users s ∧
    tabs.Read Sample.epoch (fun _ => 0) 1 false s.db 0 ∧ photosOf tabs.all = [11] ∧ tabs.Agree := by
  obtain ⟨s,_,reachable,passed⟩ := Sample.reached Sample.matched
    (fun s => Sample.showsTabs s.world [11] [] [11] [] [] && decide (Tabbed 1 0 false s.db)) (by decide +kernel)
  obtain ⟨shown,tabbed⟩ := (Bool.and_eq_true _ _).mp passed
  obtain ⟨tabs,read,all,_⟩ := Sample.tabs_of shown
  exact ⟨s,tabs,reachable,read,all,(momentTabs reachable.lived read).mpr (of_decide_eq_true tabbed)⟩

/-- A photo that waits for its verdict is in the ALL tab and in no other. -/
theorem momentTabs_validating : ¬ ∀ (s : Backend) (tabs : Tabs) (userId : UUID) (excludeToday : Bool) (today : Date),
    Reachable Sample.settings Rat.sqrt Sample.users s →
    tabs.Read Sample.epoch (fun _ => 0) userId excludeToday s.db today → tabs.Agree := by
  intro claim
  obtain ⟨s,_,reachable,passed⟩ := Sample.reached Sample.uploaded
    (fun s => Sample.showsTabs s.world [11] [] [] [] []) (by decide +kernel)
  obtain ⟨tabs,read,all,searching,matched,expired⟩ := Sample.tabs_of passed
  have union := (claim s tabs 1 false 0 reachable read).union
  rw [all,searching,matched,expired] at union
  exact absurd union (by decide)

end Dalm
