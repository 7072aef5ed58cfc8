import Dalm.Lists
import Dalm.Relational.Pages
import Dalm.ShownPermissions
import Mathlib.Data.Prod.Lex

/-! Following the cursors of a list neither loses nor repeats a row, whatever happens to the
database between the requests. -/
namespace Dalm
open Relational Txn Codec HomeRepository

/-- Where a row stands in its list: its timestamp first, then its id. -/
abbrev Place := Time ×ₗ UUID

instance Place.order : Preorder Place :=
  @Prod.Lex.instPreorder Time UUID Int.instLinearOrder.toPreorder Fin.instPartialOrder.toPreorder

/-- A photo has one seat at most, and a match one partner for each of its users. -/
structure Paired (db : Db) : Prop where
  seat : ∀ first ∈ db.participants.rows, ∀ second ∈ db.participants.rows,
    first.photoId = second.photoId → first = second
  partner : ∀ mine ∈ db.participants.rows, ∀ first ∈ db.participants.rows,
    ∀ second ∈ db.participants.rows, first.matchId = mine.matchId → second.matchId = mine.matchId →
    first.userId ≠ mine.userId → second.userId ≠ mine.userId → first = second

section paired
variable {db : Db}

theorem Inv.paired {settings : Settings} {w : BackendWorld} (inv : Inv settings w) : Paired w.db := by
  constructor
  · intro first one second two same
    have keys := inv.matches_.once _ _ _ _ (Table.get?_of_mem one) (Table.get?_of_mem two) same
    have found := Table.get?_of_mem one
    rw [keys,Table.get?_of_mem two] at found
    exact (Option.some.inj found).symm
  · intro mine one first two second three here there other other'
    have found : w.db.participants.get? (mine.matchId,mine.userId) = some mine := Table.get?_of_mem one
    have found₁ : w.db.participants.get? (mine.matchId,first.userId) = some first := here ▸ Table.get?_of_mem two
    have found₂ : w.db.participants.get? (mine.matchId,second.userId) = some second :=
      there ▸ Table.get?_of_mem three
    obtain ⟨u,v,_,_,_,_,_,_,only⟩ := inv.matches_.pair _ (inv.matches_.participant _ _ _ found).1
    have users : first.userId = second.userId := by
      rcases only _ _ found with rfl | rfl
      · exact ((only _ _ found₁).resolve_left other).trans ((only _ _ found₂).resolve_left other').symm
      · exact ((only _ _ found₁).resolve_right other).trans ((only _ _ found₂).resolve_right other').symm
    rw [users,found₂] at found₁
    exact (Option.some.inj found₁).symm

theorem Reachable.paired {K : Type} [Field K] [LinearOrder K] [IsStrictOrderedRing K] [FloorRing K]
    {settings : Settings} {sqrt : ℚ → K} {users : Table User.id} {s : Backend}
    (reachable : Reachable settings sqrt users s) : Paired s.db := reachable.inv.paired

end paired

section order
variable {ρ : Type}

theorem precedes_iff {cursor : Option Place} {instant : Time} {id : UUID} :
    precedes (cursor.map ofLex) instant id = true ↔ Below cursor (toLex (instant,id)) := by
  cases cursor with
  | none => simp [precedes,below_none]
  | some last =>
    rw [below_some,Prod.Lex.lt_iff]
    exact decide_eq_true_iff

/-- Rows of distinct ids, the latest first and among rows of one instant the highest id first. -/
theorem sorted_decreasing (instant : ρ → Time) (id : ρ → UUID) {later : ρ → ρ → Prop} [DecidableRel later]
    (ordered : ∀ first second, later first second ↔
      instant second < instant first ∨ (instant first = instant second ∧ id second ≤ id first))
    {rows : List ρ} (distinct : (rows.map id).Nodup) : (rows.insertionSort later).Pairwise fun earlier after =>
      (toLex (instant after,id after) : Place) < toLex (instant earlier,id earlier) := by
  let place : ρ → Place := fun row => toLex (instant row,id row)
  have places : ∀ first second, later first second ↔ place second ≤ place first := by
    intro first second
    rw [ordered,Prod.Lex.le_iff]
    exact or_congr Iff.rfl (and_congr eq_comm Iff.rfl)
  have total : Std.Total later := ⟨fun first second => by
    rw [places,places]
    exact le_total _ _⟩
  have transitive : IsTrans ρ later := ⟨fun first second third one two => by
    rw [places] at one two ⊢
    exact two.trans one⟩
  have sorted := List.pairwise_insertionSort later rows
  have apart := List.pairwise_map.mp (((List.perm_insertionSort later rows).map id).nodup_iff.mpr distinct)
  refine (sorted.and apart).imp fun both => lt_of_le_of_ne ((places _ _).mp both.1) fun same => ?_
  exact both.2 (congrArg (fun here => (ofLex here).2) same).symm

end order

section moments
variable {userId : UUID} {db : Db} {photo : Photo}

theorem length_le_one {α : Type} {rows : List α} (distinct : rows.Nodup)
    (same : ∀ first ∈ rows, ∀ second ∈ rows, first = second) : rows.length ≤ 1 := by
  match rows with
  | [] => exact Nat.zero_le 1
  | [_] => exact Nat.le_refl 1
  | first :: second :: rest =>
    have equal := same first List.mem_cons_self second (List.mem_cons_of_mem _ List.mem_cons_self)
    rw [equal] at distinct
    exact absurd List.mem_cons_self (List.nodup_cons.mp distinct).1

theorem length_flatMap_le_one {α β : Type} {rows : List α} {f : α → List β} (few : rows.length ≤ 1)
    (each : ∀ row ∈ rows, (f row).length ≤ 1) : (rows.flatMap f).length ≤ 1 := by
  match rows with
  | [] => exact Nat.zero_le 1
  | [row] =>
    rw [List.flatMap_singleton]
    exact each row (List.mem_singleton_self row)
  | _ :: _ :: rest => exact absurd few (by simp)

theorem length_outer {β : Type} {rows : List β} (few : rows.length ≤ 1) : (outer rows).length ≤ 1 := by
  unfold outer
  split
  · exact Nat.le_refl 1
  · rw [List.length_map]
    exact few

/-- Joined with one row at most, a row stays one. -/
theorem flatMap_outer {α β : Type} {rows : List α} (few : rows.length ≤ 1) (value : β) :
    (outer rows).flatMap (fun _ => [value]) = [value] := by
  match rows with
  | [] => rfl
  | [_] => rfl
  | _ :: _ :: _ => exact absurd few (by simp)

theorem outer_ne_nil {α : Type} (rows : List α) : outer rows ≠ [] := by
  cases rows <;> simp [outer]

theorem none_mem_outer {α : Type} {rows : List α} (inside : none ∈ outer rows) : rows = [] := by
  cases rows with
  | nil => rfl
  | cons row rows => simp [outer] at inside

theorem momentColumns_photo {row : MomentColumns} (member : row ∈ momentColumns userId db photo) :
    row.photo = photo := by
  simp only [momentColumns,List.bind_eq_flatMap,List.mem_flatMap,List.pure_def,List.mem_singleton] at member
  obtain ⟨participant,_,partner,_,rfl⟩ := member
  rfl

/-- A participant has one partner at most. -/
theorem Paired.partners (paired : Paired db) {mine : MatchParticipant} (seat : mine ∈ db.participants.rows) :
    (HomeRepository.partners mine.userId mine.matchId db).length ≤ 1 := by
  refine length_le_one ((List.Nodup.of_map _ db.participants.distinct).filter _) ?_
  intro first one second two
  obtain ⟨there,chosen⟩ := List.mem_filter.mp one
  obtain ⟨there',chosen'⟩ := List.mem_filter.mp two
  obtain ⟨same,other⟩ := of_decide_eq_true chosen
  obtain ⟨same',other'⟩ := of_decide_eq_true chosen'
  exact paired.partner mine seat first there second there' same same' other other'

theorem Paired.momentColumns (paired : Paired db) (userId : UUID) (photo : Photo) :
    (momentColumns userId db photo).length ≤ 1 := by
  have distinct := List.Nodup.of_map _ db.participants.distinct
  simp only [HomeRepository.momentColumns,List.bind_eq_flatMap]
  refine length_flatMap_le_one (length_outer (length_le_one (distinct.filter _) ?_)) ?_
  · intro first one second two
    obtain ⟨there,chosen⟩ := List.mem_filter.mp one
    obtain ⟨there',chosen'⟩ := List.mem_filter.mp two
    exact paired.seat _ there _ there' ((of_decide_eq_true chosen).1.trans (of_decide_eq_true chosen').1.symm)
  · intro participant member
    refine length_flatMap_le_one (length_outer ?_) fun _ _ => Nat.le_refl 1
    cases participant with
    | none => exact Nat.zero_le 1
    | some mine =>
      obtain ⟨seat,own⟩ := List.mem_filter.mp (some_mem_outer.mp member)
      exact (of_decide_eq_true own).2 ▸ paired.partners seat

theorem momentColumns_participants (paired : Paired db) (userId : UUID) (photo : Photo) :
    (momentColumns userId db photo).map MomentColumns.participant =
      outer (db.participants.rows.filter fun row => row.photoId = photo.id ∧ row.userId = userId) := by
  simp only [momentColumns,List.bind_eq_flatMap,List.map_flatMap,List.pure_def,List.map_singleton]
  refine (List.flatMap_congr fun participant member => ?_).trans (List.flatMap_singleton' _)
  refine flatMap_outer ?_ participant
  cases participant with
  | none => exact Nat.zero_le 1
  | some mine =>
    obtain ⟨seat,own⟩ := List.mem_filter.mp (some_mem_outer.mp member)
    exact (of_decide_eq_true own).2 ▸ paired.partners seat

end moments

section listings
variable {db : Db}

theorem momentRows_ordered (chosen : MomentQuery) (cursor : Option Cursor) (paired : Paired db) :
    (momentRows chosen cursor db).Pairwise fun earlier later =>
      (toLex (later.photo.registeredAt,later.photo.id) : Place) <
        toLex (earlier.photo.registeredAt,earlier.photo.id) := by
  have distinct := db.photos.distinct
  refine List.pairwise_flatMap.mpr ⟨?_,?_⟩
  · intro photo _
    have few := (List.length_filter_le (fun row => chosen.filter.accepts row) _).trans
      (paired.momentColumns chosen.userId photo)
    generalize (momentColumns chosen.userId db photo).filter _ = rows at few
    match rows with
    | [] => exact .nil
    | [_] => exact List.pairwise_singleton _ _
    | _ :: _ :: _ => exact absurd few (by simp)
  · refine (sorted_decreasing Photo.registeredAt Photo.id (fun _ _ => Iff.rfl)
      (distinct.sublist (List.filter_sublist.map _))).imp ?_
    · intro earlier later less one first two second
      rw [momentColumns_photo (List.mem_filter.mp first).1,momentColumns_photo (List.mem_filter.mp second).1]
      exact less

/-- The moments of a user on a day, as they are listed. -/
def momentListing (userId : UUID) (filter : MomentFilter) (excludeToday : Bool) :
    Listing (Db × Date) MomentColumns Place where
  key row := toLex (row.photo.registeredAt,row.photo.id)
  rows cursor state := momentRows ⟨userId,filter,state.2,excludeToday⟩ (cursor.map ofLex) state.1
  sound state := Paired state.1
  ordered cursor state paired := momentRows_ordered _ _ paired
  mem_rows cursor state row := by
    have below := @precedes_iff cursor
    simp only [mem_momentRows,Option.map_none]
    constructor
    · rintro ⟨photo,there,⟨owner,kept,day,before⟩,joined,accepted⟩
      refine ⟨⟨photo,there,⟨owner,kept,day,rfl⟩,joined,accepted⟩,?_⟩
      rw [momentColumns_photo joined]
      exact below.mp before
    · rintro ⟨⟨photo,there,⟨owner,kept,day,_⟩,joined,accepted⟩,before⟩
      rw [momentColumns_photo joined] at before
      exact ⟨photo,there,⟨owner,kept,day,below.mpr before⟩,joined,accepted⟩

end listings

/-! Which rows match is said of the tables; the queries list the places of exactly these rows. -/
section matching
variable {db : Db} {userId : UUID}

/-- The user has hidden the match of the photo. -/
def IsHidden (userId : UUID) (db : Db) (photo : Photo) : Prop :=
  ∃ seat ∈ db.participants.rows, seat.photoId = photo.id ∧ seat.userId = userId ∧ seat.hiddenAt ≠ none

def HomeRepository.MomentFilter.Asks (userId : UUID) (db : Db) (photo : Photo) : MomentFilter → Prop
  | .all => ¬ IsHidden userId db photo
  | .hidden => IsHidden userId db photo
  | .status wanted => photo.status = wanted ∧ ¬ IsHidden userId db photo

def PostcardRepository.Mailbox.Keeps (userId : UUID) (card : Postcard) : PostcardRepository.Mailbox → Prop
  | .received => card.receiverId = userId ∧ card.receiverDeletedAt = none
  | .sent => card.senderId = userId ∧ card.senderDeletedAt = none

/-- Every photo has a row among the moments. -/
theorem exists_column (paired : Paired db) (userId : UUID) (photo : Photo) :
    ∃ row, row ∈ momentColumns userId db photo := by
  refine List.exists_mem_of_ne_nil _ fun nothing => ?_
  have seats := momentColumns_participants paired userId photo
  rw [nothing] at seats
  exact outer_ne_nil _ seats.symm

end matching

/-- A request for a page: what it asked for, the state it was answered in, and the answer. -/
structure Visit (δ : Type) where
  size : PageSize
  session : Nat
  inputs : Nat → Input
  world : BackendWorld
  data : δ

section follows
variable {δ α : Type}

/-- Run alone in its world, the endpoint answered the visit. -/
def Visit.answers (visit : Visit δ) (endpoint : PageSize → Option (List Char) → App δ)
    (cursor : Option (List Char)) : Prop :=
  (alone visit.session visit.inputs (endpoint visit.size cursor) 0 visit.world).result = .ok visit.data

/-- Requests from a cursor on, each with the cursor the one before was given, until there is
no next page. -/
inductive Follows (endpoint : PageSize → Option (List Char) → App δ) (page : δ → Paged α) :
    Option (List Char) → List (Visit δ) → Prop
  | last {cursor : Option (List Char)} {visit : Visit δ} (answered : visit.answers endpoint cursor)
      (ends : (page visit.data).hasNext = false) : Follows endpoint page cursor [visit]
  | next {cursor : Option (List Char)} {visit : Visit δ} {text : List Char} {visits : List (Visit δ)}
      (answered : visit.answers endpoint cursor) (more : (page visit.data).hasNext = true)
      (given : (page visit.data).nextCursor = some text) (rest : Follows endpoint page (some text) visits) :
      Follows endpoint page cursor (visit :: visits)

/-- The places of all items, page after page. -/
def places (page : δ → Paged α) (place : α → Cursor) (visits : List (Visit δ)) : List Cursor :=
  visits.flatMap fun visit => (page visit.data).items.map place

/-- What following the cursors of a list shows; `matching` are the places of the rows that match
the filter when a request is answered. -/
structure Paginates (page : δ → Paged α) (place : α → Cursor) (matching : Visit δ → Cursor → Prop)
    (visits : List (Visit δ)) : Prop where
  decreasing : (places page place visits).Pairwise fun earlier later => (toLex later : Place) < toLex earlier
  once : ∀ row, (∀ visit ∈ visits, matching visit row) → (places page place visits).count row = 1
  notTwice : (∀ visit ∈ visits, ∀ visit' ∈ visits, ∀ row row', matching visit row → matching visit' row' →
    row.2 = row'.2 → row.1 = row'.1) → ((places page place visits).map Prod.snd).Nodup
  matched : ∀ visit ∈ visits, ∀ item ∈ (page visit.data).items, matching visit (place item)
  bounded : ∀ visit ∈ visits, (page visit.data).items.length ≤ visit.size.value

/-- An answer is the page of a list below a cursor. -/
structure Shows {σ ρ : Type} (service : Timestamps) (list : Listing σ ρ Place) (place : α → Cursor)
    (cursor : Option Place) (state : σ) (size : PageSize) (data : Paged α) : Prop where
  items : data.items.map (fun item => toLex (place item)) =
    ((list.rows cursor state).take size.value).map list.key
  hasNext : data.hasNext = decide (size.value < (list.rows cursor state).length)
  nextCursor : ∀ text, data.nextCursor = some text → ∃ row,
    ((list.rows cursor state).take size.value).getLast? = some row ∧
      service.encode (ofLex (list.key row)) = .ok text

theorem Timestamps.decode_encode {service : Timestamps} {place : Cursor} {text : List Char}
    (encoded : service.encode place = .ok text) : service.decode (some text) = .ok (some place) := by
  unfold Timestamps.encode at encoded
  split at encoded
  next => cases encoded
  next value made =>
    rw [← Except.ok.inj encoded]
    obtain ⟨aware,exact_⟩ := service.exact _ _ made
    simp only [Timestamps.decode,decodeCursor_encodeCursor service.others aware,exact_]

section pages
variable {σ ρ : Type} {service : Timestamps} {list : Listing σ ρ Place} {page : δ → Paged α}
  {place : α → Cursor} {endpoint : PageSize → Option (List Char) → App δ} {state : Visit δ → σ}
  {visits : List (Visit δ)} {text : Option (List Char)} {cursor : Option Cursor}

/-- What a page of the list and a visit have in common. -/
def pageTold (list : Listing σ ρ Place) (made : Page σ ρ) : σ × Nat × List Place :=
  (made.state,made.size,made.rows.map list.key)

def visitTold (state : Visit δ → σ) (page : δ → Paged α) (place : α → Cursor) (visit : Visit δ) :
    σ × Nat × List Place :=
  (state visit,visit.size.value,(page visit.data).items.map fun item => toLex (place item))

theorem Follows.pages (follows : Follows endpoint page text visits)
    (shows_ : ∀ visit text cursor, service.decode text = .ok cursor → visit.answers endpoint text →
      Shows service list place (cursor.map toLex) (state visit) visit.size (page visit.data))
    (sound : ∀ visit ∈ visits, list.sound (state visit)) (decoded : service.decode text = .ok cursor) :
    ∃ pages, Pages list (cursor.map toLex) pages ∧
      pages.map (pageTold list) = visits.map (visitTold state page place) := by
  induction follows generalizing cursor with
  | @last text visit answered ends =>
    have shown := shows_ visit text cursor decoded answered
    have few : (list.rows (cursor.map toLex) (state visit)).length ≤ visit.size.value := by
      rw [shown.hasNext,decide_eq_false_iff_not] at ends
      exact Nat.le_of_not_lt ends
    refine ⟨_,.last (sound visit (List.mem_singleton_self _)) few,?_⟩
    rw [List.map_singleton,List.map_singleton,pageTold,visitTold,shown.items,List.take_of_length_le few]
  | @next text visit text' visits answered more given rest ih =>
    have shown := shows_ visit text cursor decoded answered
    obtain ⟨row,ended,encoded⟩ := shown.nextCursor text' given
    obtain ⟨pages,read,same⟩ := ih (fun visit member => sound visit (List.mem_cons_of_mem _ member))
      (Timestamps.decode_encode encoded)
    refine ⟨_,.next (sound visit List.mem_cons_self) ended read,?_⟩
    rw [List.map_cons,List.map_cons,same,pageTold,visitTold,shown.items]

section told
variable {pages : List (Page σ ρ)} {cursor : Option Place}

theorem keys_told (same : pages.map (pageTold list) = visits.map (visitTold state page place)) :
    Pages.keys list pages = (places page place visits).map toLex := by
  have third := congrArg (List.flatMap fun told : σ × Nat × List Place => told.2.2) same
  rw [List.flatMap_map,List.flatMap_map] at third
  rw [places,List.map_flatMap]
  simp only [List.map_map]
  exact third

theorem page_told (same : pages.map (pageTold list) = visits.map (visitTold state page place))
    {visit : Visit δ} (member : visit ∈ visits) :
    ∃ made ∈ pages, pageTold list made = visitTold state page place visit := by
  have told := List.mem_map_of_mem (f := visitTold state page place) member
  rw [← same] at told
  exact List.mem_map.mp told

theorem visit_told (same : pages.map (pageTold list) = visits.map (visitTold state page place))
    {made : Page σ ρ} (member : made ∈ pages) :
    ∃ visit ∈ visits, visitTold state page place visit = pageTold list made := by
  have told := List.mem_map_of_mem (f := pageTold list) member
  rw [same] at told
  exact List.mem_map.mp told

theorem item_matches (read : Pages list cursor pages)
    (same : pages.map (pageTold list) = visits.map (visitTold state page place)) {visit : Visit δ} {item : α}
    (member : visit ∈ visits) (inside : item ∈ (page visit.data).items) :
    place item ∈ (list.rows none (state visit)).map fun row => ofLex (list.key row) := by
  obtain ⟨made,there,equal⟩ := page_told same member
  obtain ⟨here,_,rows⟩ := Prod.mk.inj equal |>.imp id Prod.mk.inj
  have told := List.mem_map_of_mem (f := fun item => (toLex (place item) : Place)) inside
  rw [← rows] at told
  obtain ⟨row,shown,key⟩ := List.mem_map.mp told
  have listed := (read.listed there shown).1
  rw [here] at listed
  exact List.mem_map.mpr ⟨row,listed,congrArg ofLex key⟩

theorem mem_places (read : Pages list none pages)
    (same : pages.map (pageTold list) = visits.map (visitTold state page place)) {row : Cursor}
    (stays : ∀ visit ∈ visits, row ∈ (list.rows none (state visit)).map fun row => ofLex (list.key row)) :
    row ∈ places page place visits := by
  have listed : toLex row ∈ Pages.keys list pages := by
    refine read.complete (below_none _) fun made there => ?_
    obtain ⟨visit,member,equal⟩ := visit_told same there
    obtain ⟨other,inside,key⟩ := List.mem_map.mp (stays visit member)
    have here : state visit = made.state := congrArg Prod.fst equal
    exact ⟨other,here ▸ inside,congrArg toLex key⟩
  rw [keys_told same] at listed
  obtain ⟨other,inside,equal⟩ := List.mem_map.mp listed
  exact toLex.injective equal ▸ inside

end told

theorem Follows.paginates {matching : Visit δ → Cursor → Prop} (follows : Follows endpoint page none visits)
    (shows_ : ∀ visit text cursor, service.decode text = .ok cursor → visit.answers endpoint text →
      Shows service list place (cursor.map toLex) (state visit) visit.size (page visit.data))
    (sound : ∀ visit ∈ visits, list.sound (state visit))
    (listed : ∀ visit ∈ visits, ∀ row, matching visit row ↔
      row ∈ (list.rows none (state visit)).map fun row => ofLex (list.key row)) :
    Paginates page place matching visits := by
  have start : service.decode none = .ok none := rfl
  obtain ⟨pages,read,same⟩ := follows.pages shows_ sound start
  have decreasing : (places page place visits).Pairwise fun earlier later =>
      (toLex later : Place) < toLex earlier := by
    have all := read.decreasing
    rw [keys_told same,List.pairwise_map] at all
    exact all
  have distinct : (places page place visits).Nodup := decreasing.imp fun less same => by
    rw [same] at less
    exact lt_irrefl _ less
  have matched : ∀ visit ∈ visits, ∀ item ∈ (page visit.data).items, matching visit (place item) :=
    fun visit member item inside => (listed visit member _).mpr (item_matches read same member inside)
  refine ⟨decreasing,?_,?_,matched,?_⟩
  · intro row stays
    exact List.count_eq_one_of_mem distinct
      (mem_places read same fun visit member => (listed visit member row).mp (stays visit member))
  · intro stamped
    have inside : ∀ row ∈ places page place visits, ∃ visit ∈ visits, matching visit row := by
      intro row member
      obtain ⟨visit,there,shown⟩ := List.mem_flatMap.mp member
      obtain ⟨item,here,rfl⟩ := List.mem_map.mp shown
      exact ⟨visit,there,matched visit there item here⟩
    refine List.Nodup.map_on ?_ distinct
    intro row one row' two ids
    obtain ⟨visit,there,here⟩ := inside row one
    obtain ⟨visit',there',here'⟩ := inside row' two
    exact Prod.ext (stamped visit there visit' there' row row' here here' ids) ids
  · intro visit member
    obtain ⟨made,there,equal⟩ := page_told same member
    have size : made.size = visit.size.value := congrArg (fun told => told.2.1) equal
    have rows := congrArg (fun told : σ × Nat × List Place => told.2.2.length) equal
    simp only [pageTold,visitTold,List.length_map] at rows
    rw [← rows,← size]
    exact read.bounded there

end pages
end follows

section endpoints
variable {α β ρ σ : Type} {service : Timestamps} {list : Listing σ ρ Place} {cursor : Option Cursor}
  {state : σ} {size : PageSize} {t n : Nat} {inputs : Nat → Input} {w : BackendWorld}

/-- The rows that were fetched stand at the first places of the list, one more than the page shows. -/
theorem paginate_shows {τ : Type} {place : τ → Cursor} {rows : List τ} {page : Paged τ}
    {cursor : Option Place} (fetched : rows.map (fun row => toLex (place row)) =
      ((list.rows cursor state).take (size.value + 1)).map list.key)
    (done : service.paginate place size rows = .ok page) :
    Shows service list place cursor state size page := by
  have items : (rows.take size.value).map (fun row => toLex (place row)) =
      ((list.rows cursor state).take size.value).map list.key := by
    rw [List.map_take,fetched,← List.map_take,fetched_page]
  have more : size.value < rows.length ↔ size.value < (list.rows cursor state).length := by
    have length := congrArg List.length fetched
    rw [List.length_map,List.length_map] at length
    rw [length,fetched_more]
  have last : ∀ row, (rows.take size.value).getLast? = some row → ∃ other,
      ((list.rows cursor state).take size.value).getLast? = some other ∧ list.key other = toLex (place row) := by
    intro row ended
    have both := congrArg List.getLast? items
    rw [List.getLast?_map,List.getLast?_map,ended] at both
    exact Option.map_eq_some_iff.mp both.symm
  unfold Timestamps.paginate at done
  dsimp only at done
  split at done
  next many =>
    have there := decide_eq_true (more.mp many)
    split at done
    next =>
      cases done
      exact ⟨items,there.symm,fun text absent => nomatch absent⟩
    next row ended =>
      cases encoded : service.encode (place row) with
      | error error =>
        rw [encoded] at done
        cases done
      | ok text =>
        rw [encoded] at done
        cases done
        refine ⟨items,there.symm,fun text' given => ?_⟩
        cases given
        obtain ⟨other,ended',key⟩ := last row ended
        have place_ : ofLex (list.key other) = place row := congrArg ofLex key
        exact ⟨other,ended',place_ ▸ encoded⟩
  next few =>
    cases done
    exact ⟨items,(decide_eq_false fun many => few (more.mpr many)).symm,fun text absent => nomatch absent⟩

theorem Shows.respond {place : α → Cursor} {place' : β → Cursor} {cursor : Option Place} {page : Paged α}
    {items : List β} (shows_ : Shows service list place cursor state size page)
    (same : items.map place' = page.items.map place) :
    Shows service list place' cursor state size ⟨items,page.nextCursor,page.hasNext⟩ := by
  refine ⟨?_,shows_.hasNext,shows_.nextCursor⟩
  have lexed := congrArg (List.map (toLex : Cursor → Place)) same
  rw [List.map_map,List.map_map] at lexed
  exact lexed.trans shows_.items

theorem orRaise_ok {x : Except Exc α} {k : α → App β} {value : β} :
    (alone t inputs (orRaise x >>= k) n w).result = .ok value ↔
      ∃ a, x = .ok a ∧ (alone t inputs (k a) n w).result = .ok value := by
  constructor
  · intro done
    cases x with
    | ok a => exact ⟨a,rfl,done⟩
    | error error => cases done
  · rintro ⟨a,rfl,done⟩
    exact done

theorem mapM_places {τ τ' : Type} {f : τ → Except Exc τ'} {place : τ → Cursor} {place' : τ' → Cursor}
    {rows : List τ} {made : List τ'} (each : ∀ row item, f row = .ok item → place' item = place row)
    (done : rows.mapM f = .ok made) : made.map place' = rows.map place := by
  induction rows generalizing made with
  | nil =>
    cases done
    rfl
  | cons row rows ih =>
    rw [List.mapM_cons] at done
    cases first : f row with
    | error error =>
      rw [first] at done
      cases done
    | ok item =>
      rw [first] at done
      cases rest : rows.mapM f with
      | error error =>
        rw [rest] at done
        cases done
      | ok items =>
        rw [rest] at done
        cases done
        rw [List.map_cons,List.map_cons,each row item first,ih rest]

theorem momentRow_place {userId : UUID} {row : MomentColumns} {made : MomentRow}
    (done : momentRow userId row = .ok made) :
    (made.registeredAt,made.photoId) = (row.photo.registeredAt,row.photo.id) := by
  unfold momentRow at done
  cases permission : momentPermission userId row with
  | error error =>
    rw [permission] at done
    cases done
  | ok found =>
    rw [permission] at done
    cases done
    rfl

theorem momentPhoto_place {row : MomentRow} {item : MomentPhoto}
    (answered : (alone t inputs (momentPhoto row) n w).result = .ok item) :
    item.place = (row.registeredAt,row.photoId) := by
  unfold momentPhoto at answered
  split at answered
  next =>
    cases answered
    rfl
  next =>
    cases answered
    rfl

theorem listMoments_shows {seoulDate : Time → Date} {userId : UUID} {filter : MomentFilter}
    {excludeToday : Bool} {text : Option (List Char)} {data : MomentListData}
    (decoded : service.decode text = .ok cursor)
    (answered : (alone t inputs (Endpoint.listMoments service seoulDate userId filter excludeToday size text)
      0 w).result = .ok data) :
    Shows service (momentListing userId filter excludeToday) MomentPhoto.place (cursor.map toLex)
      (w.db,seoulDate (inputs 0).now) size data.toPaged := by
  rw [Endpoint.listMoments,alone_supply] at answered
  obtain ⟨cursor',same,answered⟩ := orRaise_ok.mp answered
  cases decoded.symm.trans same
  obtain ⟨photos,_,_,listed,answered⟩ := alone_bind_ok answered
  obtain ⟨counts,_,_,_,answered⟩ := alone_bind_ok answered
  obtain ⟨page,paged,answered⟩ := orRaise_ok.mp answered
  obtain ⟨items,_,_,shown,answered⟩ := alone_bind_ok answered
  cases answered
  have rows := congrArg Ended.result listed
  rw [alone_listMoments] at rows
  refine (paginate_shows ?_ paged).respond
    (alone_mapM (fun _ _ _ _ => momentPhoto_place) (congrArg Ended.result shown))
  have lexed := congrArg (List.map (toLex : Cursor → Place)) (mapM_places (fun _ _ => momentRow_place) rows)
  rw [List.map_map,List.map_map] at lexed
  refine lexed.trans ?_
  cases cursor <;> rfl

end endpoints

namespace Sample

def firstSecond (instant : Int) : Option DateTime :=
  if bound : 0 ≤ instant ∧ instant < 1000000 then
    some ⟨1970,1,1,0,0,0,instant.toNat,some 0,by decide,by omega,by decide⟩
  else none

def sinceEpoch (value : DateTime) : Option Int :=
  if (value.year,value.month,value.day) = (1970,1,1) ∧ (value.hour,value.minute,value.second) = (0,0,0) ∧
    value.utcoffset = some 0 then some value.microsecond
  else none

theorem sinceEpoch_firstSecond {instant : Int} {value : DateTime} (made : firstSecond instant = some value) :
    value.isAware ∧ sinceEpoch value = some instant := by
  unfold firstSecond at made
  split at made
  next bound =>
    cases made
    have same : (instant.toNat : Int) = instant := Int.toNat_of_nonneg bound.1
    refine ⟨rfl,?_⟩
    simp [sinceEpoch,same]
  next => cases made

/-- A driver for the first second of 1970. -/
def epoch : Timestamps := ⟨firstSecond,sinceEpoch,fun _ => none,fun _ _ => sinceEpoch_firstSecond⟩

def searching (id : UUID) : Photo :=
  ⟨id,1,"",none,none,.searching,id.val,5,none,none,none,none,none⟩

def single : PageSize := ⟨1,by decide⟩

def moment (id : UUID) : MomentPhoto := ⟨id,"",none,.searching,5,none,none,none,none,false,none⟩

/-- One row of each of the other lists, and what its page shows. -/
def blocked : Visit (Paged BlockedUser) :=
  ⟨single,7,fun _ => input 9 0,⟨{Db.empty users with blocks := ⟨[⟨1,2,5⟩],by decide⟩},[]⟩,
    ⟨[⟨⟨2,"second",none⟩,5⟩],none,false⟩⟩

def notice : Notification :=
  ⟨21,1,.matched,"","",.match_,31,none,none,5⟩

def received : Postcard := ⟨41,31,2,1,"letter".toList,none,none,5,none,none⟩

theorem unmatched {db : Db} (none_ : db.participants.rows = []) : Paired db := by
  constructor
  · intro first one
    rw [none_] at one
    cases one
  · intro mine one
    rw [none_] at one
    cases one

end Sample

end Dalm
