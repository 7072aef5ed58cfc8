import Dalm.Relational.Rules

/-! Rules for the statements programs are written with. Each takes a statement
followed by the rest of the program, so a proof walks down the program's text. -/
namespace Relational
open Held
variable {σ κ ι ε err ρ α β : Type} [Lockable σ κ]
variable {P : Protocol σ κ ε ρ} {D : Discipline σ ι ε} {r : ρ} {t : Nat} {H : Held σ κ}
  {w : World σ ε} {Q : Except err α → Held σ κ → World σ ε → Prop}

@[simp] theorem wp_pure (value : α) :
    wp P D r t (pure value : Txn σ κ ι ε err α) Q H w ↔ Q (.ok value) H w := Iff.rfl

@[simp] theorem wp_throw (error : err) :
    wp P D r t (throw error : Txn σ κ ι ε err α) Q H w ↔ Q (.error error) H w := Iff.rfl

@[simp] theorem wp_throw_bind (error : err) (k : β → Txn σ κ ι ε err α) :
    wp P D r t (throw error >>= k) Q H w ↔ Q (.error error) H w := Iff.rfl

theorem wp_supply {k : ι → Txn σ κ ι ε err α}
    (rest : ∀ i w', Later P D t H w w' → D.input w' i → wp P D r t (k i) Q H w') :
    wp P D r t (Txn.supply >>= k) Q H w := rest

theorem wp_query {f : σ → β} {k : β → Txn σ κ ι ε err α}
    (rest : ∀ w', Later P D t H w w' → wp P D r t (k (f w'.db)) Q H w') :
    wp P D r t (Txn.query f >>= k) Q H w := by
  intro w' later _
  refine ⟨.inl rfl,?_⟩
  rw [World.record_nil]
  exact rest w' later

theorem wp_observe {event : σ → ε} {f : σ → β} {k : β → Txn σ κ ι ε err α}
    (rest : ∀ w', Later P D t H w w' → D.allows w' (w'.record t [event w'.db]) →
      P.step r t (keys H) w' (w'.record t [event w'.db]) ∧
        wp P D r t (k (f w'.db)) Q H (w'.record t [event w'.db])) :
    wp P D r t (Txn.observe event f >>= k) Q H w := by
  intro w' later allowed
  obtain ⟨step,after⟩ := rest w' later allowed
  exact ⟨.inr step,after⟩

theorem wp_select {key : κ} {k : Option (Lockable.Row σ key) → Txn σ κ ι ε err α}
    (missing : ∀ w', Later P D t H w w' → Lockable.view key w'.db = none →
      wp P D r t (k none) Q H w')
    (found : ∀ w' row, Later P D t H w w' → Lockable.view key w'.db = some row →
      wp P D r t (k (some row)) Q (⟨key,row⟩ :: H) w') :
    wp P D r t (Txn.selectForUpdate key >>= k) Q H w := by
  intro w' later
  cases seen : Lockable.view key w'.db with
  | none => exact missing w' later seen
  | some row => exact found w' row later seen

/-- The two cases of a locking SELECT in one: a row that is there is held. -/
theorem wp_row {key : κ} {k : Option (Lockable.Row σ key) → Txn σ κ ι ε err α}
    (rest : ∀ found w', Later P D t H w w' →
      Holds ((found.map (Sigma.mk key)).toList ++ H) w'.db →
      wp P D r t (k found) Q ((found.map (Sigma.mk key)).toList ++ H) w') :
    wp P D r t (Txn.selectForUpdate key >>= k) Q H w := by
  apply wp_select
  · exact fun w' later _ => rest none w' later later.holds
  · exact fun w' row later seen => rest (some row) w' later ((holds_cons _ _ _).mpr ⟨seen,later.holds⟩)

theorem wp_undo {k : Unit → Txn σ κ ι ε err α} (rest : wp P D r t (k ()) Q [] w) :
    wp P D r t (Txn.undo >>= k) Q H w := rest

theorem wp_commit {failure : err} {writes : ι → σ → Option (σ × List ε)}
    {k : ι → Txn σ κ ι ε err α}
    (failed : ∀ i w', Later P D t H w w' → D.input w' i → writes i w'.db = none →
      Q (.error failure) H w')
    (done : ∀ i w' db events, Later P D t H w w' → D.input w' i →
      writes i w'.db = some (db,events) →
      D.allows w' ((World.mk db w'.log).record t events) →
        P.step r t (keys H) w' ((World.mk db w'.log).record t events) ∧
          wp P D r t (k i) Q [] ((World.mk db w'.log).record t events)) :
    wp P D r t (Txn.commitOr failure writes >>= k) Q H w := by
  intro i w' later input
  cases written : writes i w'.db with
  | none => exact failed i w' later input written
  | some result => exact done i w' result.1 result.2 later input written

section rows
variable {key : β → κ} {cond : (b : β) → Lockable.Row σ (key b) → Bool}

def taken (rows : List ((b : β) × Lockable.Row σ (key b))) : Held σ κ :=
  rows.reverse.map fun e => ⟨key e.1,e.2⟩

theorem mem_keys_taken {rows : List ((b : β) × Lockable.Row σ (key b))} {k : κ} :
    k ∈ keys (taken rows) ↔ ∃ e ∈ rows, key e.1 = k := by
  simp [taken,keys]

theorem taken_cons (e : (b : β) × Lockable.Row σ (key b))
    (rows : List ((b : β) × Lockable.Row σ (key b))) :
    taken (e :: rows) = taken rows ++ [⟨key e.1,e.2⟩] := by
  simp [taken]

/-- After locking a list of rows all of them that still meet the condition are held, and
a row passed over did not meet it at some moment on the way. -/
theorem wp_lockEach {bs : List β} {k : List ((b : β) × Lockable.Row σ (key b)) → Txn σ κ ι ε err α}
    (inv : P.inv w) (holds : Holds H w.db)
    (rest : ∀ rows w', Later P D t H w w' → Holds (taken rows ++ H) w'.db →
      (rows.map Sigma.fst).Sublist bs → (∀ e ∈ rows, cond e.1 e.2 = true) →
      (∀ b ∈ bs, b ∉ rows.map Sigma.fst → ∃ w₂, Later P D t H w w₂ ∧
        (Lockable.view (key b) w₂.db).filter (cond b) = none) →
        wp P D r t (k rows) Q (taken rows ++ H) w') :
    wp P D r t (Txn.lockEach key cond bs >>= k) Q H w := by
  induction bs generalizing H w k with
  | nil => exact rest [] w (Later.refl inv holds) holds .slnil (by simp) (by simp)
  | cons b bs ih =>
    intro w' later
    split <;> change wp P D r t ((Txn.bind (Txn.lockEach key cond bs) _).bind k) Q _ w' <;>
      rw [Txn.bind_assoc]
    next row found =>
      obtain ⟨seen,accepted⟩ := Option.filter_eq_some_iff.mp found
      have now : Holds (⟨key b,row⟩ :: H) w'.db := (holds_cons _ _ _).mpr ⟨seen,later.holds⟩
      apply ih later.inv now (k := fun rows => k (⟨b,row⟩ :: rows))
      intro rows w₂ further held fewer all passed
      have assoc : taken rows ++ ⟨key b,row⟩ :: H = taken (⟨b,row⟩ :: rows) ++ H := by
        rw [taken_cons]
        simp
      rw [assoc] at held ⊢
      refine rest _ w₂ (later.trans further.tail) held (fewer.cons_cons b) ?_ ?_
      · intro e member
        rcases List.mem_cons.mp member with rfl | inside
        · exact accepted
        · exact all e inside
      · intro c member absent
        rw [List.map_cons,List.mem_cons,not_or] at absent
        rcases List.mem_cons.mp member with rfl | inside
        · exact absurd rfl absent.1
        · obtain ⟨w₃,between,missed⟩ := passed c inside absent.2
          exact ⟨w₃,later.trans between.tail,missed⟩
    next missing =>
      apply ih later.inv later.holds (k := k)
      intro rows w₂ further held fewer all passed
      refine rest rows w₂ (later.trans further) held (fewer.cons b) all ?_
      intro c member absent
      rcases List.mem_cons.mp member with rfl | inside
      · exact ⟨w',later,missing⟩
      · obtain ⟨w₃,between,missed⟩ := passed c inside absent
        exact ⟨w₃,later.trans between,missed⟩

/-- SKIP LOCKED passes over rows and stops at the first it can lock. -/
theorem wp_firstUnlocked {bs : List β}
    {k : Option ((b : β) × Lockable.Row σ (key b)) → Txn σ κ ι ε err α}
    (inv : P.inv w) (holds : Holds H w.db)
    (missing : ∀ w', Later P D t H w w' → wp P D r t (k none) Q H w')
    (found : ∀ b row w', b ∈ bs → Later P D t H w w' → cond b row = true →
      Lockable.view (key b) w'.db = some row →
        wp P D r t (k (some ⟨b,row⟩)) Q (⟨key b,row⟩ :: H) w') :
    wp P D r t (Txn.firstUnlocked key cond bs >>= k) Q H w := by
  induction bs generalizing w with
  | nil => exact missing w (Later.refl inv holds)
  | cons b bs ih =>
    intro w' later
    have skip : wp P D r t (Txn.firstUnlocked key cond bs >>= k) Q H w' := by
      apply ih later.inv later.holds
      · exact fun w₂ further => missing w₂ (later.trans further)
      · exact fun c row w₂ member further =>
          found c row w₂ (List.mem_cons_of_mem b member) (later.trans further)
    refine ⟨skip,?_⟩
    split
    next row seen =>
      obtain ⟨present,accepted⟩ := Option.filter_eq_some_iff.mp seen
      exact found b row w' List.mem_cons_self later accepted present
    next => trivial

end rows

section history
variable (P D)

/-- Any number of atomic changes, by whomever. -/
def Passage : World σ ε → World σ ε → Prop :=
  Relation.ReflTransGen fun w w' =>
    ∃ r t held, P.inv w ∧ P.step r t held w w' ∧ D.allows w w'

omit [Lockable σ κ] in
/-- Whatever was appended to the history in between, session `t` appended only events of
the kind `S`. -/
def Appends (t : Nat) (S : ε → Prop) (w w' : World σ ε) : Prop :=
  ∃ more, w'.log = w.log ++ more ∧ ∀ entry ∈ more, entry.1 = t → S entry.2

/-- A stretch of a run in which session `t` did nothing but `S`. -/
structure Onward (t : Nat) (S : ε → Prop) (w w' : World σ ε) : Prop where
  passage : Passage P D w w'
  appends : Appends t S w w'

variable {P D}

theorem Later.passage {w' : World σ ε} (later : Later P D t H w w') : Passage P D w w' := by
  refine Relation.ReflTransGen.mono ?_ _ _ later.rely
  rintro a b ⟨u,r,other,_,_,inv,step,allowed⟩
  exact ⟨r,u,other,inv,step,allowed⟩

theorem Passage.preserves {F : World σ ε → Prop} {w' : World σ ε} (passage : Passage P D w w')
    (start : F w) (each : ∀ r t held a b, P.inv a → P.step r t held a b → D.allows a b →
      F a → F b) : F w' := by
  induction passage with
  | refl => exact start
  | tail _ link ih =>
    obtain ⟨r,t,held,inv,step,allowed⟩ := link
    exact each r t held _ _ inv step allowed ih

section appends
omit [Lockable σ κ]
variable {S : ε → Prop} {a b c : World σ ε}

theorem Appends.refl : Appends t S a a := ⟨[],by simp,by simp⟩

theorem Appends.trans (first : Appends t S a b) (second : Appends t S b c) : Appends t S a c := by
  obtain ⟨one,same,each⟩ := first
  obtain ⟨two,same',each'⟩ := second
  refine ⟨one ++ two,by rw [same',same,List.append_assoc],?_⟩
  intro entry member
  rcases List.mem_append.mp member with inside | inside
  · exact each entry inside
  · exact each' entry inside

theorem Appends.mono {T : ε → Prop} (appends : Appends t S a b) (weaker : ∀ e, S e → T e) :
    Appends t T a b := by
  obtain ⟨more,same,each⟩ := appends
  exact ⟨more,same,fun entry member own => weaker _ (each entry member own)⟩

theorem Appends.own {events : List ε} {db : σ} (each : ∀ e ∈ events, S e) :
    Appends t S a ((World.mk db a.log).record t events) := by
  refine ⟨events.map fun event => (t,event),rfl,?_⟩
  intro entry member _
  obtain ⟨event,inside,rfl⟩ := List.mem_map.mp member
  exact each event inside

theorem Appends.others {u : Nat} {events : List ε} {db : σ} (other : u ≠ t) :
    Appends t S a ((World.mk db a.log).record u events) := by
  refine ⟨events.map fun event => (u,event),rfl,?_⟩
  intro entry member own
  obtain ⟨event,_,rfl⟩ := List.mem_map.mp member
  exact absurd own other

end appends

theorem Later.appends {S : ε → Prop} {w' : World σ ε} (later : Later P D t H w w') :
    Appends t S w w' := by
  refine later.preserves (F := Appends t S w) .refl ?_
  rintro a b ⟨u,r,other,different,_,_,step,_⟩ before
  obtain ⟨db,events,rfl⟩ := P.records step
  exact before.trans (.others different)

section onward
variable {S : ε → Prop} {a b c : World σ ε}

theorem Onward.refl : Onward P D t S a a := ⟨.refl,.refl⟩

theorem Onward.trans (first : Onward P D t S a b) (second : Onward P D t S b c) :
    Onward P D t S a c := ⟨first.passage.trans second.passage,first.appends.trans second.appends⟩

theorem Onward.mono {T : ε → Prop} (onward : Onward P D t S a b) (weaker : ∀ e, S e → T e) :
    Onward P D t T a b := ⟨onward.passage,onward.appends.mono weaker⟩

theorem Later.onward (later : Later P D t H a b) : Onward P D t S a b :=
  ⟨later.passage,later.appends⟩

theorem Onward.own {held : List κ} {events : List ε} {db : σ} (inv : P.inv a)
    (step : P.step r t held a ((World.mk db a.log).record t events))
    (allowed : D.allows a ((World.mk db a.log).record t events)) (each : ∀ e ∈ events, S e) :
    Onward P D t S a ((World.mk db a.log).record t events) :=
  ⟨.single ⟨r,t,held,inv,step,allowed⟩,.own each⟩

end onward

end history
end Relational
