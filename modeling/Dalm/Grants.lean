import Mathlib.Data.List.Induction
import Mathlib.Data.List.Nodup
import Mathlib.Logic.Function.Basic

/-! Grants that are used once. A grant is held by its owner until it is spent, is
exchanged for a new one or is cleared with all of its owner's; a history of such events
tells who holds what. Identifiers and owners are any types. -/
namespace Grants
variable {Id Owner : Type}

inductive Event (Id Owner : Type) where
  | granted (id : Id) (owner : Owner)
  | exchanged (old new : Id) (owner : Owner)
  | spent (id : Id) (owner : Owner)
  | cleared (owner : Owner)
deriving DecidableEq

namespace Event

def added? : Event Id Owner → Option (Id × Owner)
  | .granted id owner => some (id,owner)
  | .exchanged _ new owner => some (new,owner)
  | _ => none

def used? : Event Id Owner → Option Id
  | .exchanged old _ _ => some old
  | .spent id _ => some id
  | _ => none

end Event

def added (events : List (Event Id Owner)) : List (Id × Owner) := events.filterMap Event.added?

def used (events : List (Event Id Owner)) : List Id := events.filterMap Event.used?

section holders
variable [DecidableEq Id] [DecidableEq Owner]

/-- Who holds what after an event. -/
def hand (held : Id → Option Owner) : Event Id Owner → Id → Option Owner
  | .granted id owner => Function.update held id (some owner)
  | .exchanged old new owner => Function.update (Function.update held old none) new (some owner)
  | .spent id _ => Function.update held id none
  | .cleared owner => fun id => (held id).filter (· ≠ owner)

def holder (events : List (Event Id Owner)) : Id → Option Owner :=
  events.foldl hand fun _ => none

/-- A grant is new, and what is used is held by the owner named. -/
def Fits (events : List (Event Id Owner)) : Event Id Owner → Prop
  | .granted id _ => id ∉ (added events).map Prod.fst
  | .exchanged old new owner => holder events old = some owner ∧ new ∉ (added events).map Prod.fst
  | .spent id owner => holder events id = some owner
  | .cleared _ => True

inductive Valid : List (Event Id Owner) → Prop where
  | nil : Valid []
  | snoc {events : List (Event Id Owner)} {event : Event Id Owner} (before : Valid events)
      (fits : Fits events event) : Valid (events ++ [event])

end holders

/-- The grants a grant became by exchange. -/
inductive Descends (events : List (Event Id Owner)) (root : Id) : Id → Prop where
  | root : Descends events root root
  | exchanged {old new : Id} {owner : Owner} (before : Descends events root old)
      (member : Event.exchanged old new owner ∈ events) : Descends events root new

@[simp] theorem added_append (events more : List (Event Id Owner)) :
    added (events ++ more) = added events ++ added more := List.filterMap_append

@[simp] theorem used_append (events more : List (Event Id Owner)) :
    used (events ++ more) = used events ++ used more := List.filterMap_append

theorem mem_used {events : List (Event Id Owner)} {event : Event Id Owner} {id : Id}
    (member : event ∈ events) (uses : event.used? = some id) : id ∈ used events :=
  List.mem_filterMap.mpr ⟨event,member,uses⟩

theorem mem_added {events : List (Event Id Owner)} {event : Event Id Owner} {id : Id} {owner : Owner}
    (member : event ∈ events) (adds : event.added? = some (id,owner)) :
    (id,owner) ∈ added events := List.mem_filterMap.mpr ⟨event,member,adds⟩

variable [DecidableEq Id] [DecidableEq Owner]
variable {events earlier later : List (Event Id Owner)} {event : Event Id Owner} {id : Id}
  {owner : Owner}

@[simp] theorem holder_snoc :
    holder (events ++ [event]) = hand (holder events) event := by
  simp [holder]

theorem valid_snoc : Valid (events ++ [event]) ↔ Valid events ∧ Fits events event := by
  constructor
  · intro valid
    generalize same : events ++ [event] = all at valid
    cases valid with
    | nil => simp at same
    | snoc before fits =>
      obtain ⟨rfl,last⟩ := List.append_inj' same rfl
      cases last
      exact ⟨before,fits⟩
  · exact fun ⟨before,fits⟩ => .snoc before fits

theorem Valid.front (valid : Valid (events ++ later)) : Valid events := by
  induction later using List.reverseRecOn with
  | nil => simpa using valid
  | append_singleton later event ih =>
    rw [← List.append_assoc] at valid
    exact ih (valid_snoc.mp valid).1

theorem added_of_holder (held : holder events id = some owner) : (id,owner) ∈ added events := by
  induction events using List.reverseRecOn generalizing id with
  | nil => cases held
  | append_singleton events event ih =>
    rw [holder_snoc] at held
    rw [added_append,List.mem_append]
    cases event with
    | granted new other =>
      rcases eq_or_ne id new with rfl | different
      · simp only [hand,Function.update_self,Option.some.injEq] at held
        exact .inr (by simp [added,Event.added?,held])
      · exact .inl (ih (by simpa [hand,different] using held))
    | exchanged old new other =>
      rcases eq_or_ne id new with rfl | different
      · simp only [hand,Function.update_self,Option.some.injEq] at held
        exact .inr (by simp [added,Event.added?,held])
      · simp only [hand,Function.update_of_ne different] at held
        rcases eq_or_ne id old with rfl | other'
        · simp at held
        · exact .inl (ih (by simpa [other'] using held))
    | spent old other =>
      rcases eq_or_ne id old with rfl | different
      · simp [hand] at held
      · exact .inl (ih (by simpa [hand,different] using held))
    | cleared other =>
      exact .inl (ih (Option.filter_eq_some_iff.mp held).1)

theorem holder_none_snoc (nobody : holder events id = none)
    (others : ∀ owner, event.added? ≠ some (id,owner)) : holder (events ++ [event]) id = none := by
  rw [holder_snoc]
  cases event with
  | granted new other =>
    have different : id ≠ new := fun same => others other (by simp [Event.added?,same])
    simpa [hand,different] using nobody
  | exchanged old new other =>
    have different : id ≠ new := fun same => others other (by simp [Event.added?,same])
    simp only [hand,Function.update_of_ne different]
    rcases eq_or_ne id old with rfl | elsewhere
    · simp
    · simpa [elsewhere] using nobody
  | spent old other =>
    rcases eq_or_ne id old with rfl | elsewhere
    · simp [hand]
    · simpa [hand,elsewhere] using nobody
  | cleared other => simp [hand,nobody]

theorem Fits.fresh (fits : Fits events event) (adds : event.added? = some (id,owner)) :
    id ∉ (added events).map Prod.fst := by
  cases event with
  | granted new other =>
    cases adds
    exact fits
  | exchanged old new other =>
    cases adds
    exact fits.2
  | spent old other => cases adds
  | cleared other => cases adds

theorem Fits.held (fits : Fits events event) (uses : event.used? = some id) :
    ∃ owner, holder events id = some owner := by
  cases event with
  | granted new other => cases uses
  | exchanged old new other =>
    cases uses
    exact ⟨other,fits.1⟩
  | spent old other =>
    cases uses
    exact ⟨other,fits⟩
  | cleared other => cases uses

omit [DecidableEq Id] [DecidableEq Owner] in
theorem fst_mem_added (member : (id,owner) ∈ added events) : id ∈ (added events).map Prod.fst :=
  List.mem_map_of_mem member

theorem Valid.added_once (valid : Valid events) : ((added events).map Prod.fst).Nodup := by
  induction valid with
  | nil => exact List.nodup_nil
  | @snoc events event _ fits ih =>
    rw [added_append,List.map_append]
    cases adds : event.added? with
    | none => simpa [added,adds] using ih
    | some pair =>
      obtain ⟨id,owner⟩ := pair
      have one : added [event] = [(id,owner)] := by simp [added,adds]
      rw [one]
      exact ih.append (List.nodup_singleton _) (by simpa using fits.fresh adds)

theorem Valid.owner_unique {other : Owner} (valid : Valid events) (first : (id,owner) ∈ added events)
    (second : (id,other) ∈ added events) : owner = other := by
  have same := List.inj_on_of_nodup_map valid.added_once first second rfl
  exact (Prod.mk.inj same).2

theorem Valid.gone (valid : Valid (events ++ later)) (was : id ∈ (added events).map Prod.fst)
    (nobody : holder events id = none) : holder (events ++ later) id = none ∧ id ∉ used later := by
  induction later using List.reverseRecOn with
  | nil => simpa [used] using nobody
  | append_singleton later event ih =>
    rw [← List.append_assoc] at valid
    obtain ⟨before,fits⟩ := valid_snoc.mp valid
    obtain ⟨still,unused⟩ := ih before
    rw [← List.append_assoc]
    refine ⟨holder_none_snoc still ?_,?_⟩
    · intro owner adds
      have fresh := fits.fresh adds
      rw [added_append,List.map_append] at fresh
      exact fresh (List.mem_append_left _ was)
    · rw [used_append,List.mem_append]
      rintro (member | member)
      · exact unused member
      · obtain ⟨last,inside,uses⟩ := List.mem_filterMap.mp member
        cases List.mem_singleton.mp inside
        obtain ⟨owner,held⟩ := fits.held uses
        rw [still] at held
        cases held

theorem Valid.used_none (valid : Valid (events ++ [event])) (uses : event.used? = some id) :
    holder (events ++ [event]) id = none := by
  obtain ⟨before,fits⟩ := valid_snoc.mp valid
  rw [holder_snoc]
  cases event with
  | granted new other => cases uses
  | exchanged old new other =>
    cases uses
    have different : id ≠ new := by
      rintro rfl
      exact fits.2 (fst_mem_added (added_of_holder fits.1))
    simp [hand,different]
  | spent old other =>
    cases uses
    simp [hand]
  | cleared other => cases uses

theorem Valid.used_added (valid : Valid events) (member : id ∈ used events) :
    id ∈ (added events).map Prod.fst := by
  induction valid with
  | nil => cases member
  | @snoc events event _ fits ih =>
    rw [used_append,List.mem_append] at member
    rw [added_append,List.map_append]
    refine List.mem_append_left _ ?_
    rcases member with member | member
    · exact ih member
    · obtain ⟨last,inside,uses⟩ := List.mem_filterMap.mp member
      cases List.mem_singleton.mp inside
      obtain ⟨owner,held⟩ := fits.held uses
      exact fst_mem_added (added_of_holder held)

theorem Valid.used_nobody (valid : Valid events) (member : id ∈ used events) :
    holder events id = none := by
  obtain ⟨event,inside,uses⟩ := List.mem_filterMap.mp member
  obtain ⟨earlier,later,rfl⟩ := List.append_of_mem inside
  have split : earlier ++ event :: later = (earlier ++ [event]) ++ later := by simp
  rw [split] at valid ⊢
  have before := valid.front
  refine (valid.gone ?_ (before.used_none uses)).1
  exact before.used_added (mem_used (by simp) uses)

theorem Valid.used_once (valid : Valid events) : (used events).Nodup := by
  induction valid with
  | nil => exact List.nodup_nil
  | @snoc events event before fits ih =>
    rw [used_append]
    cases uses : event.used? with
    | none => simpa [used,uses] using ih
    | some id =>
      obtain ⟨owner,held⟩ := fits.held uses
      have unused : id ∉ used events := by
        intro member
        rw [before.used_nobody member] at held
        cases held
      have one : used [event] = [id] := by simp [used,uses]
      rw [one]
      exact ih.append (List.nodup_singleton _) (by simpa using unused)

theorem held_before (held : (holder (events ++ [event]) id).isSome) :
    (holder events id).isSome ∨ ∃ owner, event.added? = some (id,owner) := by
  by_contra neither
  rw [not_or,not_exists] at neither
  obtain ⟨nobody,others⟩ := neither
  rw [holder_none_snoc (by simpa using nobody) others] at held
  cases held

omit [DecidableEq Id] [DecidableEq Owner] in
/-- A grant that was not exchanged became no other. -/
theorem Descends.alone {root : Id} (descends : Descends events root id) (unused : root ∉ used events) :
    id = root := by
  induction descends with
  | root => rfl
  | exchanged _ member ih => exact absurd (ih ▸ mem_used member rfl) unused

omit [DecidableEq Id] [DecidableEq Owner] in
theorem Descends.added {root : Id} (descends : Descends events root id) :
    id = root ∨ id ∈ (added events).map Prod.fst := by
  cases descends with
  | root => exact .inl rfl
  | exchanged _ member => exact .inr (fst_mem_added (mem_added member rfl))

/-- What descends after an exchange did before, or is what the last grant became. -/
theorem Valid.descends_snoc {root : Id} (valid : Valid (events ++ [event]))
    (descends : Descends (events ++ [event]) root id) : Descends events root id ∨
      ∃ old owner, event = .exchanged old id owner ∧ Descends events root old := by
  obtain ⟨before,fits⟩ := valid_snoc.mp valid
  induction descends with
  | root => exact .inl .root
  | @exchanged old new owner _ member ih =>
    rcases ih with descends | ⟨first,other,rfl,_⟩
    · rcases List.mem_append.mp member with inside | last
      · exact .inl (descends.exchanged inside)
      · exact .inr ⟨old,owner,(List.mem_singleton.mp last).symm,descends⟩
    · rcases List.mem_append.mp member with inside | last
      · exact absurd (before.used_added (mem_used inside rfl)) fits.2
      · cases List.mem_singleton.mp last
        exact absurd (fst_mem_added (added_of_holder fits.1)) fits.2

/-- Of the grants one grant became at most one is held. -/
theorem Valid.chain {root first second : Id} (valid : Valid events)
    (one : Descends events root first) (other : Descends events root second)
    (held : (holder events first).isSome) (held' : (holder events second).isSome) :
    first = second := by
  induction valid generalizing first second with
  | nil => cases held
  | @snoc events event before fits ih =>
    have valid := Valid.snoc before fits
    -- A grant just added is a root of its own.
    have fresh : ∀ {a b owner}, event.added? = some (a,owner) → Descends events root a →
        Descends events root b → a = b := by
      intro a b owner adds descends descends'
      have absent := fits.fresh adds
      have same : a = root := descends.added.resolve_right absent
      subst same
      exact (descends'.alone fun member => absent (before.used_added member)).symm
    -- Of an exchange only the new grant is held.
    have exchange : ∀ {a b old owner}, event = .exchanged old a owner → Descends events root old →
        Descends events root b → (holder (events ++ [event]) b).isSome → a = b := by
      intro a b old owner same descends descends' held
      rcases held_before held with was | ⟨_,adds⟩
      · have same' : old = b := by
          subst same
          exact ih descends descends' (by simp [fits.1]) was
        have gone : holder (events ++ [event]) old = none := valid.used_none (by rw [same]; rfl)
        rw [← same',gone] at held
        cases held
      · rw [same] at adds
        exact (Prod.mk.inj (Option.some.inj adds)).1
    rcases valid.descends_snoc one with one | ⟨old,owner,same,parent⟩ <;>
      rcases valid.descends_snoc other with other | ⟨old',owner',same',parent'⟩
    · rcases held_before held with was | ⟨_,adds⟩
      · rcases held_before held' with was' | ⟨_,adds⟩
        · exact ih one other was was'
        · exact (fresh adds other one).symm
      · exact fresh adds one other
    · exact (exchange same' parent' one held).symm
    · exact exchange same parent other held'
    · rw [same] at same'
      cases same'
      rfl

theorem Valid.exchanged_owner {old new : Id} (valid : Valid events)
    (member : .exchanged old new owner ∈ events) : (old,owner) ∈ Grants.added events := by
  obtain ⟨earlier,later,rfl⟩ := List.append_of_mem member
  have split : earlier ++ .exchanged old new owner :: later =
    (earlier ++ [.exchanged old new owner]) ++ later := by simp
  rw [split] at valid
  obtain ⟨_,fits⟩ := valid_snoc.mp valid.front
  rw [added_append]
  exact List.mem_append_left _ (added_of_holder fits.1)

/-- After an owner's grants are cleared none he had before, and nothing that became of
one, is held or used. -/
theorem Valid.cleared {root : Id} (valid : Valid (earlier ++ .cleared owner :: later))
    (was : (root,owner) ∈ Grants.added earlier)
    (descends : Descends (earlier ++ .cleared owner :: later) root id) :
    holder (earlier ++ .cleared owner :: later) id = none ∧ id ∉ used later := by
  have split : earlier ++ .cleared owner :: later = (earlier ++ [.cleared owner]) ++ later := by simp
  have until' : Valid (earlier ++ [.cleared owner]) := (split ▸ valid).front
  have before : Valid earlier := until'.front
  have none_ : ∀ {a}, (a,owner) ∈ Grants.added earlier →
      holder (earlier ++ .cleared owner :: later) a = none ∧ a ∉ used later := by
    intro a was
    have nobody : holder (earlier ++ [.cleared owner]) a = none := by
      rw [holder_snoc,hand,Option.filter_eq_none_iff]
      intro other held
      simpa using before.owner_unique (added_of_holder held) was
    rw [split] at valid ⊢
    refine valid.gone ?_ nobody
    rw [added_append,List.map_append]
    exact List.mem_append_left _ (fst_mem_added was)
  suffices own : (id,owner) ∈ Grants.added earlier from none_ own
  induction descends with
  | root => exact was
  | @exchanged old new other _ member ih =>
    rcases List.mem_append.mp member with inside | inside
    · have same : other = owner := before.owner_unique (before.exchanged_owner inside) ih
      exact same ▸ mem_added inside rfl
    · rcases List.mem_cons.mp inside with absurd' | inside
      · cases absurd'
      · exact absurd (mem_used inside rfl) (none_ ih).2

/-- After an owner's grants are cleared he holds none, until one is granted to him. -/
theorem Valid.holder_cleared (valid : Valid (earlier ++ .cleared owner :: later))
    (none_ : ∀ id, .granted id owner ∉ later) (id : Id) :
    holder (earlier ++ .cleared owner :: later) id ≠ some owner := by
  induction later using List.reverseRecOn generalizing id with
  | nil =>
    intro held
    rw [holder_snoc] at held
    have other := (Option.filter_eq_some_iff.mp held).2
    simp at other
  | append_singleton later event ih =>
    have split : earlier ++ .cleared owner :: (later ++ [event]) =
      (earlier ++ .cleared owner :: later) ++ [event] := by simp
    rw [split] at valid ⊢
    obtain ⟨before,fits⟩ := valid_snoc.mp valid
    have still := ih before fun id member => none_ id (List.mem_append_left _ member)
    intro held
    rcases held_before (by rw [held]; rfl) with was | ⟨other,adds⟩
    · obtain ⟨first,was⟩ := Option.isSome_iff_exists.mp was
      have inside : (id,first) ∈ Grants.added ((earlier ++ .cleared owner :: later) ++ [event]) := by
        rw [added_append]
        exact List.mem_append_left _ (added_of_holder was)
      exact still id (valid.owner_unique inside (added_of_holder held) ▸ was)
    · have same : other = owner := by
        refine valid.owner_unique ?_ (added_of_holder held)
        rw [added_append]
        exact List.mem_append_right _ (mem_added List.mem_cons_self adds)
      subst same
      cases event with
      | granted new owner =>
        cases adds
        exact none_ id (by simp)
      | exchanged old new owner =>
        cases adds
        exact still old fits.1
      | spent old owner => cases adds
      | cleared owner => cases adds

theorem Valid.exchange_cleared {old new : Id} (valid : Valid (earlier ++ .cleared owner :: later))
    (none_ : ∀ id, .granted id owner ∉ later) : .exchanged old new owner ∉ later := by
  intro member
  obtain ⟨first,last,rfl⟩ := List.append_of_mem member
  have split : earlier ++ .cleared owner :: (first ++ .exchanged old new owner :: last) =
    ((earlier ++ .cleared owner :: first) ++ [.exchanged old new owner]) ++ last := by simp
  rw [split] at valid
  obtain ⟨before,fits⟩ := valid_snoc.mp valid.front
  exact before.holder_cleared (fun id inside => none_ id (List.mem_append_left _ inside)) old fits.1

end Grants
