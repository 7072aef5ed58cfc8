import Dalm.Lease

/-! A queue of leased items that one worker serves round by round. Each of his rounds closes an item or uses up
one of its attempts, so after some of them every item is closed. -/
namespace Lease
variable {ω : Type} {p : Policy} {item final : Item ω} {items items' : List (Item ω)} {start stop : Int}

/-- What an item can still be taken for: once to close it, and once for each attempt it has left. -/
def Policy.left (p : Policy) (item : Item ω) : Nat :=
  match item.phase with
  | .closed => 0
  | _ => 1 + (p.limit - item.attempts).toNat

def Policy.workLeft (p : Policy) (items : List (Item ω)) : Nat := (items.map p.left).sum

/-- From this time on the item can be handed out, unless it is closed. -/
def Policy.DueFrom (p : Policy) (due : Int) (item : Item ω) : Prop :=
  ∀ now, due ≤ now → item.phase ≠ .closed → p.claimable now item.phase

/-- What a worker does about the item he takes at `start`, and is done with at `stop`. -/
inductive Worked (start stop : Int) : List (Event ω) → Prop where
  | abandoned : Worked start stop [.closed]
  | closed (worker : ω) : Worked start stop [.handed worker start,.closed]
  | retried (worker : ω) : Worked start stop [.handed worker start,.retried stop]

/-- One round of a worker, who finds nothing to do only where nothing is open. -/
inductive Policy.Round (p : Policy) (start stop : Int) : List (Item ω) → List (Item ω) → Prop where
  | idle {items : List (Item ω)} (closed : ∀ item ∈ items, item.phase = .closed) : Round p start stop items items
  | served {before after : List (Item ω)} {item final : Item ω} {events : List (Event ω)}
    (worked : Worked start stop events) (ran : p.replay item events = some final) :
    Round p start stop (before ++ item :: after) (before ++ final :: after)

section items

theorem left_of_closed (closed : item.phase = .closed) : p.left item = 0 := by
  rw [Policy.left,closed]

theorem left_of_open (open_ : item.phase ≠ .closed) : p.left item = 1 + (p.limit - item.attempts).toNat := by
  rw [Policy.left]
  split
  next closed => exact absurd closed open_
  next => rfl

theorem open_of_claimable {now : Int} (able : p.claimable now item.phase) : item.phase ≠ .closed := by
  intro closed
  rw [closed] at able
  cases able

theorem replay_one {event : Event ω} : p.replay item [event] = p.apply item event := by
  rw [replay_cons]
  exact Option.bind_fun_some _

theorem replay_two {first second : Event ω} :
    p.replay item [first,second] = (p.apply item first).bind (p.apply · second) := by
  rw [replay_cons]
  exact congrArg (Option.bind _) (funext fun _ => replay_one)

/-- A round ends with its item closed, or waiting after one attempt more that is not the last. -/
theorem Worked.ends {events : List (Event ω)} (worked : Worked start stop events)
    (ran : p.replay item events = some final) : item.phase ≠ .closed ∧ (final.phase = .closed ∨
      ((item.attempts + 1 : Nat) : Int) < p.limit ∧
        final = ⟨.waiting (some (stop + p.delay (item.attempts + 1))),item.attempts + 1⟩) := by
  cases worked with
  | abandoned =>
    rw [replay_one] at ran
    obtain ⟨open_,rfl⟩ := closed_cases ran
    exact ⟨open_,.inl rfl⟩
  | closed worker =>
    rw [replay_two] at ran
    obtain ⟨_,handed,closed⟩ := Option.bind_eq_some_iff.mp ran
    obtain ⟨able,rfl⟩ := handed_cases handed
    obtain ⟨_,rfl⟩ := closed_cases closed
    exact ⟨open_of_claimable able,.inl rfl⟩
  | retried worker =>
    rw [replay_two] at ran
    obtain ⟨_,handed,retried⟩ := Option.bind_eq_some_iff.mp ran
    obtain ⟨able,rfl⟩ := handed_cases handed
    obtain ⟨_,below,rfl⟩ := retried_cases retried
    exact ⟨open_of_claimable able,.inr ⟨below,rfl⟩⟩

/-- A round lowers what its item is left with. -/
theorem Worked.lowers {events : List (Event ω)} (worked : Worked start stop events)
    (ran : p.replay item events = some final) : p.left final < p.left item := by
  obtain ⟨open_,closed | ⟨below,rfl⟩⟩ := worked.ends ran
  · rw [left_of_closed closed,left_of_open open_]
    omega
  · rw [left_of_open (by simp),left_of_open open_]
    dsimp only
    omega

/-- An item that was retried at the end of a round waits no longer than the longest pause. -/
theorem Worked.dueFrom {events : List (Event ω)} {pause : Int} (worked : Worked start stop events)
    (ran : p.replay item events = some final)
    (long : ∀ attempts : Nat, (attempts : Int) < p.limit → p.delay attempts ≤ pause) :
    p.DueFrom (stop + pause) final := by
  intro now later open_
  obtain ⟨_,closed | ⟨below,rfl⟩⟩ := worked.ends ran
  · exact absurd closed open_
  · have short := long _ below
    simp only [Policy.claimable,Option.all_some,decide_eq_true_eq]
    linarith

end items

theorem closed_of_workLeft (none_ : p.workLeft items = 0) : ∀ item ∈ items, item.phase = .closed := by
  intro item member
  by_contra open_
  have nothing : p.left item = 0 :=
    List.sum_eq_zero_iff_forall_eq_nat.mp none_ _ (List.mem_map_of_mem member)
  rw [left_of_open open_] at nothing
  omega

theorem workLeft_of_closed (closed : ∀ item ∈ items, item.phase = .closed) : p.workLeft items = 0 := by
  refine List.sum_eq_zero_iff_forall_eq_nat.mpr fun n member => ?_
  obtain ⟨item,inside,rfl⟩ := List.mem_map.mp member
  exact left_of_closed (closed item inside)

theorem Policy.Round.lowers (round : p.Round start stop items items') : p.workLeft items' ≤ p.workLeft items - 1 := by
  cases round with
  | idle closed => rw [workLeft_of_closed closed]
  | served worked ran =>
    have lower := worked.lowers ran
    simp only [Policy.workLeft,List.map_append,List.map_cons,List.sum_append,List.sum_cons]
    omega

theorem Policy.DueFrom.later {due due' : Int} (from_ : p.DueFrom due item) (later : due ≤ due') : p.DueFrom due' item :=
  fun now after => from_ now (later.trans after)

theorem Policy.Round.dueFrom {due pause : Int} (round : p.Round start stop items items')
    (from_ : ∀ item ∈ items, p.DueFrom due item) (after : due ≤ stop + pause)
    (long : ∀ attempts : Nat, (attempts : Int) < p.limit → p.delay attempts ≤ pause) :
    ∀ item ∈ items', p.DueFrom (stop + pause) item := by
  cases round with
  | idle closed => exact fun item member => (from_ item member).later after
  | served worked ran =>
    intro item member
    rcases List.mem_append.mp member with before | here
    · exact (from_ item (List.mem_append_left _ before)).later after
    · rcases List.mem_cons.mp here with rfl | behind
      · exact worked.dueFrom ran long
      · exact (from_ item (List.mem_append_right _ (List.mem_cons_of_mem _ behind))).later after

end Lease
