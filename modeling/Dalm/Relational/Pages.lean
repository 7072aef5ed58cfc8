import Mathlib.Data.List.Sort
import Mathlib.Order.Basic

/-! Lists that are read page by page. Every page goes on below the place where the one before
it ended, in whatever state it is asked for. -/
namespace Relational
variable {σ ρ κ : Type} [Preorder κ]

def Below (cursor : Option κ) (key : κ) : Prop := ∀ last, cursor = some last → key < last

theorem below_none (key : κ) : Below none key := fun _ absent => nomatch absent

theorem below_some {last key : κ} : Below (some last) key ↔ key < last :=
  ⟨fun below => below last rfl,fun less _ same => Option.some.inj same ▸ less⟩

theorem Below.trans {cursor : Option κ} {last key : κ} (below : Below cursor last) (less : key < last) :
    Below cursor key := fun bound same => less.trans (below bound same)

/-- What a list shows of a state below a place: every row has a place, and where the state is
sound the highest stands first and no place comes twice. -/
structure Listing (σ ρ κ : Type) [Preorder κ] where
  key : ρ → κ
  rows : Option κ → σ → List ρ
  sound : σ → Prop
  ordered : ∀ cursor state, sound state →
    (rows cursor state).Pairwise fun earlier later => key later < key earlier
  mem_rows : ∀ cursor state row, row ∈ rows cursor state ↔ row ∈ rows none state ∧ Below cursor (key row)

structure Page (σ ρ : Type) where
  state : σ
  size : Nat
  rows : List ρ

theorem fetched_more {rows : List ρ} {size : Nat} :
    size < (rows.take (size + 1)).length ↔ size < rows.length := by
  rw [List.length_take]
  omega

theorem fetched_page (rows : List ρ) (size : Nat) : (rows.take (size + 1)).take size = rows.take size := by
  rw [List.take_take,Nat.min_eq_left (Nat.le_succ size)]

/-- The pages from a place on, up to one that has no next. -/
inductive Pages (list : Listing σ ρ κ) : Option κ → List (Page σ ρ) → Prop
  | last {cursor : Option κ} {state : σ} {size : Nat} (sound : list.sound state)
      (few : (list.rows cursor state).length ≤ size) :
      Pages list cursor [⟨state,size,list.rows cursor state⟩]
  | next {cursor : Option κ} {state : σ} {size : Nat} {row : ρ} {pages : List (Page σ ρ)}
      (sound : list.sound state) (ended : ((list.rows cursor state).take size).getLast? = some row)
      (rest : Pages list (some (list.key row)) pages) :
      Pages list cursor (⟨state,size,(list.rows cursor state).take size⟩ :: pages)

namespace Pages
variable {list : Listing σ ρ κ} {cursor : Option κ} {pages : List (Page σ ρ)}

/-- The places of all rows, page after page. -/
def keys (list : Listing σ ρ κ) (pages : List (Page σ ρ)) : List κ :=
  pages.flatMap fun page => page.rows.map list.key

theorem mem_keys {key : κ} : key ∈ keys list pages ↔ ∃ page ∈ pages, ∃ row ∈ page.rows, list.key row = key := by
  simp only [keys,List.mem_flatMap,List.mem_map]

theorem bounded (read : Pages list cursor pages) {page : Page σ ρ} (member : page ∈ pages) :
    page.rows.length ≤ page.size := by
  induction read with
  | last sound few =>
    cases List.mem_singleton.mp member
    exact few
  | next sound ended rest ih =>
    rcases List.mem_cons.mp member with rfl | member
    · exact List.length_take_le _ _
    · exact ih member

theorem listed (read : Pages list cursor pages) {page : Page σ ρ} {row : ρ} (member : page ∈ pages)
    (inside : row ∈ page.rows) : row ∈ list.rows none page.state ∧ Below cursor (list.key row) := by
  induction read with
  | last sound few =>
    cases List.mem_singleton.mp member
    exact (list.mem_rows _ _ _).mp inside
  | next sound ended rest ih =>
    rcases List.mem_cons.mp member with rfl | member
    · exact (list.mem_rows _ _ _).mp (List.mem_of_mem_take inside)
    · obtain ⟨matched,below⟩ := ih member
      -- The row the page before ended with is itself below the place that page began at.
      have last := (list.mem_rows _ _ _).mp (List.mem_of_mem_take (List.mem_of_getLast? ended))
      exact ⟨matched,last.2.trans (below_some.mp below)⟩

theorem lower (read : Pages list cursor pages) {key : κ} (member : key ∈ keys list pages) :
    Below cursor key := by
  obtain ⟨page,there,row,inside,rfl⟩ := mem_keys.mp member
  exact (read.listed there inside).2

theorem last_le {cursor : Option κ} {state : σ} {size : Nat} {row other : ρ} (sound : list.sound state)
    (ended : ((list.rows cursor state).take size).getLast? = some row)
    (member : other ∈ (list.rows cursor state).take size) : other = row ∨ list.key row < list.key other := by
  obtain ⟨front,same⟩ := List.getLast?_eq_some_iff.mp ended
  rw [same] at member
  rcases List.mem_append.mp member with before | alone
  · have ordered := (list.ordered cursor state sound).sublist (List.take_sublist size _)
    rw [same] at ordered
    exact .inr ((List.pairwise_append.mp ordered).2.2 other before row (List.mem_singleton_self row))
  · exact .inl (List.mem_singleton.mp alone)

/-- The places of the rows strictly decrease, within the pages and from page to page. -/
theorem decreasing (read : Pages list cursor pages) :
    (keys list pages).Pairwise fun earlier later => later < earlier := by
  induction read with
  | last sound few =>
    rw [keys,List.flatMap_singleton,List.pairwise_map]
    exact list.ordered _ _ sound
  | @next cursor state size row pages sound ended rest ih =>
    rw [keys,List.flatMap_cons,List.pairwise_append]
    refine ⟨?_,ih,?_⟩
    · rw [List.pairwise_map]
      exact (list.ordered cursor state sound).sublist (List.take_sublist size _)
    · intro key shown key' member
      obtain ⟨other,inside,rfl⟩ := List.mem_map.mp shown
      have less := below_some.mp (rest.lower member)
      rcases last_le sound ended inside with rfl | above
      · exact less
      · exact less.trans above

/-- A place that is listed in every state some page was asked for in is shown. -/
theorem complete (read : Pages list cursor pages) {key : κ} (start : Below cursor key)
    (stays : ∀ page ∈ pages, ∃ row ∈ list.rows none page.state, list.key row = key) :
    key ∈ keys list pages := by
  induction read with
  | last sound few =>
    obtain ⟨row,matched,rfl⟩ := stays _ (List.mem_singleton_self _)
    exact mem_keys.mpr ⟨_,List.mem_singleton_self _,row,(list.mem_rows _ _ _).mpr ⟨matched,start⟩,rfl⟩
  | @next cursor state size last pages sound ended rest ih =>
    obtain ⟨row,matched,rfl⟩ := stays _ List.mem_cons_self
    have here := (list.mem_rows cursor state row).mpr ⟨matched,start⟩
    rw [← List.take_append_drop size (list.rows cursor state)] at here
    rcases List.mem_append.mp here with shown | left
    · exact mem_keys.mpr ⟨_,List.mem_cons_self,row,shown,rfl⟩
    · -- What the page leaves stands below all it shows, so below the row it ends with.
      have ordered := list.ordered cursor state sound
      rw [← List.take_append_drop size (list.rows cursor state)] at ordered
      have less := (List.pairwise_append.mp ordered).2.2 last (List.mem_of_getLast? ended) row left
      have later := ih (below_some.mpr less) fun page member => stays page (List.mem_cons_of_mem _ member)
      obtain ⟨page,there,shown⟩ := mem_keys.mp later
      exact mem_keys.mpr ⟨page,List.mem_cons_of_mem _ there,shown⟩

end Pages
end Relational
