import Dalm.Relational.Rules

/-! Sessions whose programs meet their preconditions run together safely: every world
reached keeps the protocol's invariant, every change of it is one of the protocol's
atomic steps, and a session that ended left its postcondition. -/
namespace Relational
open Held
variable {σ κ ι ε err ρ α : Type} [Lockable σ κ] [DecidableEq κ]

section pool
variable (P : Protocol σ κ ε ρ) (D : Discipline σ ι ε)
  (Q : ρ → Nat → Except err α → World σ ε → Prop)

def Settled (H : Held σ κ) (w : World σ ε) (t : Nat) (session : Session σ κ ι ε err ρ α) : Prop :=
  match session.state with
  | .inl p => wp P D session.request t p (fun x _ w => Q session.request t x w) H w
  | .inr x => Q session.request t x w ∨ D.deaths

/-- Every program meets its postcondition, when its session starts with no past. -/
def Meets (program : ρ → Txn σ κ ι ε err α) : Prop :=
  ∀ r t w, P.inv w → (∀ entry ∈ w.log, entry.1 ≠ t) →
    wp P D r t (program r) (fun x _ w => Q r t x w) [] w

structure Good (s : System σ κ ι ε err ρ α) (H : Nat → Held σ κ) : Prop where
  inv : P.inv s.world
  owner : ∀ t key, s.store.owner key = some t ↔ key ∈ keys (H t)
  idle : ∀ t, s.session t = none → H t = []
  silent : ∀ t, s.session t = none → ∀ entry ∈ s.world.log, entry.1 ≠ t
  holds : ∀ t, Holds (H t) s.db
  settled : ∀ t session, s.session t = some session → Settled P D Q (H t) s.world t session

/-- What one statement of a session leaves behind. -/
structure Executed (r : ρ) (t : Nat) (H K : Held σ κ) (s u : Store σ κ ε)
    (state : Txn σ κ ι ε err α ⊕ Except err α) : Prop where
  world : u.world = s.world ∨ P.step r t (keys H) s.world u.world
  owner : ∀ v key, u.owner key = some v ↔ if v = t then key ∈ keys K else s.owner key = some v
  holds : Holds K u.world.db
  settled : Settled P D Q K u.world t ⟨r,state⟩

end pool

section steps
variable {P : Protocol σ κ ε ρ} {D : Discipline σ ι ε}
  {Q : ρ → Nat → Except err α → World σ ε → Prop} {t : Nat} {H : Held σ κ}

omit [DecidableEq κ] in
private theorem release_owner (s : Store σ κ ε) (v : Nat) (key : κ) : (s.release t).owner key = some v ↔
      if v = t then key ∈ keys ([] : Held σ κ) else s.owner key = some v := by
  rw [Store.owner_release]
  rcases eq_or_ne v t with rfl | other
  · simp
  · simp [other]

omit [DecidableEq κ] in
private theorem keep_owner {s : Store σ κ ε} (owned : ∀ key, s.owner key = some t ↔ key ∈ keys H)
    (v : Nat) (key : κ) : s.owner key = some v ↔
      if v = t then key ∈ keys H else s.owner key = some v := by
  split
  next same => rw [same,owned]
  next => rfl

private theorem take_owner {s : Store σ κ ε} (owned : ∀ key, s.owner key = some t ↔ key ∈ keys H)
    {key : κ} (free : s.free t key) (row : Lockable.Row σ key) (v : Nat) (other : κ) :
    (s.take t key).owner other = some v ↔
      if v = t then other ∈ keys (⟨key,row⟩ :: H) else s.owner other = some v := by
  have open' : s.owner key = none ∨ s.owner key = some t := by simpa [Store.free] using free
  rcases eq_or_ne other key with rfl | different
  · rcases eq_or_ne v t with rfl | foreign
    · simp [Store.take]
    · have notTheirs : s.owner other ≠ some v := by
        rcases open' with none | mine
        · simp [none]
        · simp [mine,Ne.symm foreign]
      simp [Store.take,foreign,Ne.symm foreign,notTheirs]
  · have unchanged : (s.take t key).owner other = s.owner other := by simp [Store.take,different]
    have elsewhere : other ∈ keys (⟨key,row⟩ :: H) ↔ other ∈ keys H := by simp [different]
    rw [unchanged,elsewhere]
    exact keep_owner owned v other

theorem executed {r : ρ} {p : Txn σ κ ι ε err α} {s u : Store σ κ ε} {i : ι}
    {state : Txn σ κ ι ε err α ⊕ Except err α} (inv : P.inv s.world)
    (owned : ∀ key, s.owner key = some t ↔ key ∈ keys H) (holds : Holds H s.world.db)
    (pre : wp P D r t p (fun x _ w => Q r t x w) H s.world)
    (ran : p.exec t i s = some (u,state)) (input : D.input s.world i)
    (allowed : D.allows s.world u.world) :
    ∃ K, Executed P D Q r t H K s u state := by
  have here : Later P D t H s.world s.world := Later.refl inv holds
  cases p with
  | ret value =>
    cases Option.some.inj ran
    exact ⟨[],.inl rfl,release_owner _,holds_nil _,.inl pre⟩
  | raise error =>
    cases Option.some.inj ran
    exact ⟨[],.inl rfl,release_owner _,holds_nil _,.inl pre⟩
  | input next =>
    cases Option.some.inj ran
    exact ⟨H,.inl rfl,keep_owner owned,holds,pre i _ here input⟩
  | read seen next =>
    cases Option.some.inj ran
    obtain ⟨step,rest⟩ := pre _ here allowed
    refine ⟨H,?_,keep_owner owned,holds,rest⟩
    rcases step with nothing | step
    · exact .inl (by simp [nothing])
    · exact .inr step
  | lock key cond next =>
    have rest := pre _ here
    simp only [Txn.exec] at ran
    split at ran
    next free =>
      cases found : (Lockable.view key s.world.db).filter cond with
      | some row =>
        simp only [found,Option.some.injEq,Prod.mk.injEq] at ran rest
        obtain ⟨rfl,rfl⟩ := ran
        have seen : Lockable.view key s.world.db = some row := (Option.filter_eq_some_iff.mp found).1
        refine ⟨⟨key,row⟩ :: H,.inl rfl,take_owner owned free row,?_,rest⟩
        exact (holds_cons _ _ _).mpr ⟨seen,holds⟩
      | none =>
        simp only [found,Option.some.injEq,Prod.mk.injEq] at ran rest
        obtain ⟨rfl,rfl⟩ := ran
        exact ⟨H,.inl rfl,keep_owner owned,holds,rest⟩
    next => cases ran
  | tryLock key cond next =>
    obtain ⟨skipped,rest⟩ := pre _ here
    simp only [Txn.exec] at ran
    split at ran
    next free =>
      cases found : (Lockable.view key s.world.db).filter cond with
      | some row =>
        simp only [found,Option.some.injEq,Prod.mk.injEq] at ran rest
        obtain ⟨rfl,rfl⟩ := ran
        have seen : Lockable.view key s.world.db = some row := (Option.filter_eq_some_iff.mp found).1
        refine ⟨⟨key,row⟩ :: H,.inl rfl,take_owner owned free row,?_,rest⟩
        exact (holds_cons _ _ _).mpr ⟨seen,holds⟩
      | none =>
        simp only [found,Option.some.injEq,Prod.mk.injEq] at ran
        obtain ⟨rfl,rfl⟩ := ran
        exact ⟨H,.inl rfl,keep_owner owned,holds,skipped⟩
    next =>
      cases Option.some.inj ran
      exact ⟨H,.inl rfl,keep_owner owned,holds,skipped⟩
  | commit writes next =>
    have rest := pre i _ here input
    simp only [Txn.exec] at ran
    cases written : writes i s.world.db with
    | some result =>
      obtain ⟨db,events⟩ := result
      simp only [written,Option.some.injEq,Prod.mk.injEq] at ran rest
      obtain ⟨rfl,rfl⟩ := ran
      obtain ⟨step,rest⟩ := rest allowed
      exact ⟨[],.inr step,release_owner _,holds_nil _,rest⟩
    | none =>
      simp only [written,Option.some.injEq,Prod.mk.injEq] at ran rest
      obtain ⟨rfl,rfl⟩ := ran
      exact ⟨H,.inl rfl,keep_owner owned,holds,rest⟩
  | rollback next =>
    cases Option.some.inj ran
    exact ⟨[],.inl rfl,release_owner _,holds_nil _,pre⟩

end steps

section runs
variable {P : Protocol σ κ ε ρ} {D : Discipline σ ι ε} {program : ρ → Txn σ κ ι ε err α}
  {Q : ρ → Nat → Except err α → World σ ε → Prop} {s u : System σ κ ι ε err ρ α}
  {H : Nat → Held σ κ}

omit [DecidableEq κ] in
private theorem disjoint_others (good : Good P D Q s H) {t v : Nat} (different : v ≠ t) :
    (keys (H t)).Disjoint (keys (H v)) := by
  intro key mine theirs
  have first := (good.owner t key).mpr mine
  have second := (good.owner v key).mpr theirs
  exact different (Option.some.inj (second.symm.trans first))

omit [DecidableEq κ] in
/-- The others see a session's statement as one step on rows they do not hold. -/
private theorem later_others (good : Good P D Q s H) {t v : Nat} {r : ρ} {w : World σ ε}
    (different : v ≠ t) (moved : w = s.world ∨ P.step r t (keys (H t)) s.world w)
    (allowed : D.allows s.world w) : Later P D v (H v) s.world w := by
  rcases moved with rfl | step
  · exact Later.refl good.inv (good.holds v)
  · have link : Foreign P D v (keys (H v)) s.world w :=
      ⟨t,r,keys (H t),Ne.symm different,disjoint_others good different,good.inv,step,allowed⟩
    exact Later.foreign (good.holds v) link

omit [DecidableEq κ] in
private theorem settled_later {t : Nat} {K : Held σ κ} {w w' : World σ ε}
    {session : Session σ κ ι ε err ρ α}
    (stable : ∀ r t x w w', Q r t x w → Later P D t [] w w' → Q r t x w')
    (settled : Settled P D Q K w t session) (later : Later P D t K w w') :
    Settled P D Q K w' t session := by
  unfold Settled at *
  split at settled
  next p running =>
    exact wp_later (fun x _ _ _ held rest => stable _ _ x _ _ held rest.drop) settled later
  next x ended => exact settled.imp (fun held => stable _ _ x _ _ held later.drop) id

private theorem good_start {t : Nat} {r : ρ} (good : Good P D Q s H)
    (taken : s.step program (.start t r) = some u)
    (meets : Meets P D Q program) :
    Good P D Q u H := by
  simp only [System.step] at taken
  split at taken
  next => cases taken
  next absent =>
    cases Option.some.inj taken
    have others : ∀ v, s.put t ⟨r,.inl (program r)⟩ v = none → s.session v = none := by
      intro v missing
      rcases eq_or_ne v t with rfl | different
      · exact absent
      · simpa [System.put,different] using missing
    refine ⟨good.inv,good.owner,fun v missing => good.idle v (others v missing),
      fun v missing => good.silent v (others v missing),good.holds,?_⟩
    · intro v session present
      rcases eq_or_ne v t with rfl | different
      · simp only [System.put,if_pos,Option.some.injEq] at present
        subst present
        rw [good.idle v absent]
        exact meets _ _ _ good.inv (good.silent v absent)
      · exact good.settled v session (by simpa [System.put,different] using present)

omit [DecidableEq κ] in
/-- A session left the world as it is or took a step, and now holds `K`. -/
private theorem good_put {t : Nat} {r : ρ} {K : Held σ κ} {store : Store σ κ ε}
    {state : Txn σ κ ι ε err α ⊕ Except err α} (good : Good P D Q s H)
    (stable : ∀ r t x w w', Q r t x w → Later P D t [] w w' → Q r t x w')
    (done : Executed P D Q r t (H t) K s.store store state)
    (allowed : D.allows s.world store.world) :
    Good P D Q ⟨store,s.put t ⟨r,state⟩⟩ (fun v => if v = t then K else H v) := by
  have others : ∀ v, v ≠ t → Later P D v (H v) s.world store.world :=
    fun v different => later_others good different done.world allowed
  refine ⟨?_,?_,?_,?_,?_,?_⟩ <;> simp only [System.world,System.db]
  · rcases done.world with same | step
    · rw [same]
      exact good.inv
    · exact P.keep step good.inv
  · intro v key
    rcases eq_or_ne v t with rfl | different
    · simpa using done.owner v key
    · simpa [different,good.owner] using done.owner v key
  · intro v missing
    rcases eq_or_ne v t with rfl | different
    · simp [System.put] at missing
    · simpa [different] using good.idle v (by simpa [System.put,different] using missing)
  · intro v missing entry member
    have different : v ≠ t := by
      rintro rfl
      simp [System.put] at missing
    have before := good.silent v (by simpa [System.put,different] using missing)
    rcases done.world with same | step
    · rw [same] at member
      exact before entry member
    · obtain ⟨db,events,same⟩ := P.records step
      rw [same,World.log_record,List.mem_append,List.mem_map] at member
      rcases member with member | ⟨_,_,rfl⟩
      · exact before entry member
      · exact different.symm
  · intro v
    rcases eq_or_ne v t with rfl | different
    · simpa using done.holds
    · simpa [different] using (others v different).holds
  · intro v session present
    rcases eq_or_ne v t with rfl | different
    · simp only [System.put,if_pos,Option.some.injEq] at present
      subst present
      simpa using done.settled
    · have before := good.settled v session (by simpa [System.put,different] using present)
      simpa [different] using settled_later stable before (others v different)

omit [DecidableEq κ] in
private theorem executed_die {t : Nat} {r : ρ} {error : err} (deaths : D.deaths) :
    Executed P D Q r t (H t) [] s.store (s.store.release t) (.inr (.error error)) :=
  ⟨.inl rfl,release_owner _,holds_nil _,.inr deaths⟩

theorem Good.step {action : Action ι err ρ} (good : Good P D Q s H)
    (meets : Meets P D Q program)
    (stable : ∀ r t x w w', Q r t x w → Later P D t [] w w' → Q r t x w')
    (taken : s.step program action = some u) (admitted : D.admits s u action) :
    ∃ K, Good P D Q u K := by
  cases action with
  | start t r => exact ⟨H,good_start good taken meets⟩
  | exec t i =>
    simp only [System.step] at taken
    split at taken
    next r remaining present =>
      obtain ⟨⟨store,state⟩,ran,rfl⟩ := Option.map_eq_some_iff.mp taken
      have pre := good.settled t _ present
      obtain ⟨K,done⟩ := executed (Q := Q) good.inv (good.owner t) (good.holds t) pre ran
        admitted.1 admitted.2
      exact ⟨_,good_put good stable done admitted.2⟩
    next => cases taken
  | die t error =>
    simp only [System.step] at taken
    split at taken
    next r remaining present =>
      cases Option.some.inj taken
      exact ⟨_,good_put good stable (executed_die admitted) (.inl rfl)⟩
    next => cases taken

theorem Good.change {action : Action ι err ρ} (good : Good P D Q s H)
    (taken : s.step program action = some u) (admitted : D.admits s u action) :
    u.world = s.world ∨ ∃ t i session, action = .exec t i ∧ s.session t = some session ∧
      P.step session.request t (keys (H t)) s.world u.world := by
  cases action with
  | start t r =>
    simp only [System.step] at taken
    split at taken
    next => cases taken
    next =>
      cases Option.some.inj taken
      exact .inl rfl
  | exec t i =>
    simp only [System.step] at taken
    split at taken
    next r remaining present =>
      obtain ⟨⟨store,state⟩,ran,rfl⟩ := Option.map_eq_some_iff.mp taken
      have pre := good.settled t _ present
      obtain ⟨K,done⟩ := executed (Q := Q) good.inv (good.owner t) (good.holds t) pre ran
        admitted.1 admitted.2
      exact done.world.imp id fun step => ⟨t,i,_,rfl,present,step⟩
    next => cases taken
  | die t error =>
    simp only [System.step] at taken
    split at taken
    next r remaining present =>
      cases Option.some.inj taken
      exact .inl rfl
    next => cases taken

omit [DecidableEq κ] in
private theorem ended_put {t v : Nat} {r : ρ} {value : α} {store : Store σ κ ε}
    {session : Session σ κ ι ε err ρ α} (different : v ≠ t)
    (ended : (System.mk store (s.put t session)).session v = some ⟨r,.inr (.ok value)⟩) :
    s.session v = some ⟨r,.inr (.ok value)⟩ := by simpa [System.put,different] using ended

/-- A session that returned, as opposed to one that died, has left its postcondition. -/
theorem Good.returned {action : Action ι err ρ} (good : Good P D Q s H)
    (stable : ∀ r t x w w', Q r t x w → Later P D t [] w w' → Q r t x w')
    (taken : s.step program action = some u) (admitted : D.admits s u action)
    (before : ∀ t r value, s.session t = some ⟨r,.inr (.ok value)⟩ → Q r t (.ok value) s.world)
    {v : Nat} {q : ρ} {value : α} (ended : u.session v = some ⟨q,.inr (.ok value)⟩) :
    Q q v (.ok value) u.world := by
  cases action with
  | start t r =>
    simp only [System.step] at taken
    split at taken
    next => cases taken
    next =>
      cases Option.some.inj taken
      rcases eq_or_ne v t with rfl | different
      · simp [System.put] at ended
      · exact before v q value (ended_put different ended)
  | exec t i =>
    simp only [System.step] at taken
    split at taken
    next r remaining present =>
      obtain ⟨⟨store,state⟩,ran,rfl⟩ := Option.map_eq_some_iff.mp taken
      have pre := good.settled t _ present
      obtain ⟨K,done⟩ := executed (Q := Q) good.inv (good.owner t) (good.holds t) pre ran
        admitted.1 admitted.2
      rcases eq_or_ne v t with rfl | different
      · simp only [System.put,if_pos,Option.some.injEq,Session.mk.injEq] at ended
        obtain ⟨rfl,rfl⟩ := ended
        cases remaining with
        | ret value =>
          cases Option.some.inj ran
          exact pre
        | raise | input | read | rollback => cases Option.some.inj ran
        | lock | tryLock | commit =>
          simp only [Txn.exec] at ran
          split at ran
          all_goals first
            | split at ran
            | skip
          all_goals simp at ran
      · have later := later_others good different done.world admitted.2
        exact stable _ _ _ _ _ (before v q value (ended_put different ended)) later.drop
    next => cases taken
  | die t error =>
    simp only [System.step] at taken
    split at taken
    next r remaining present =>
      cases Option.some.inj taken
      rcases eq_or_ne v t with rfl | different
      · simp [System.put] at ended
      · exact before v q value (ended_put different ended)
    next => cases taken

theorem Reach.good {start : System σ κ ι ε err ρ α} (reach : Reach program D start s)
    (first : ∃ H, Good P D Q start H)
    (meets : Meets P D Q program)
    (stable : ∀ r t x w w', Q r t x w → Later P D t [] w w' → Q r t x w') :
    ∃ H, Good P D Q s H := by
  induction reach with
  | refl => exact first
  | step action _ taken admitted ih =>
    obtain ⟨H,good⟩ := ih
    exact good.step meets stable taken admitted

theorem Reach.returned {start : System σ κ ι ε err ρ α} (reach : Reach program D start s)
    (first : ∃ H, Good P D Q start H) (idle : ∀ t, start.session t = none)
    (meets : Meets P D Q program)
    (stable : ∀ r t x w w', Q r t x w → Later P D t [] w w' → Q r t x w') {t : Nat} {r : ρ}
    {value : α} (ended : s.session t = some ⟨r,.inr (.ok value)⟩) : Q r t (.ok value) s.world := by
  induction reach generalizing t r value with
  | refl => simp [idle] at ended
  | step action before taken admitted ih =>
    obtain ⟨H,good⟩ := before.good first meets stable
    exact good.returned stable taken admitted (fun _ _ _ => ih) ended

omit [DecidableEq κ] in
/-- From any point on the run may be narrowed and more asked of the sessions that start
after it. -/
theorem Good.narrow {D' : Discipline σ ι ε} {Q' : ρ → Nat → Except err α → World σ ε → Prop}
    (good : Good P D Q s H) (inputs : ∀ w i, D'.input w i → D.input w i)
    (changes : ∀ w w', D'.change w w' → D.change w w') :
    Good P D' (fun r t x w => s.session t = none → Q' r t x w) s H := by
  refine ⟨good.inv,good.owner,good.idle,good.silent,good.holds,?_⟩
  intro t session present
  have settled := good.settled t session present
  have started : s.session t ≠ none := by simp [present]
  unfold Settled at *
  split at settled
  next p running =>
    exact wp_mono (wp_narrow inputs changes settled) fun _ _ _ _ missing => absurd missing started
  next => exact .inl fun missing => absurd missing started

omit [DecidableEq κ] in
theorem Good.initial (db : σ) (inv : P.inv ⟨db,[]⟩) :
    Good P D Q (System.initial db : System σ κ ι ε err ρ α) (fun _ => []) := by
  refine ⟨inv,?_,fun _ _ => rfl,?_,fun _ => holds_nil _,?_⟩
  · intro t key
    simp [System.initial]
  · intro t _ entry member
    cases member
  · intro t session present
    cases present

/-- An entry of the history is of a session whose request tells of such things. -/
theorem Reach.told {T : ρ → ε → Prop} {start : System σ κ ι ε err ρ α} (reach : Reach program D start s)
    (first : ∃ H, Good P D Q start H) (silent : start.world.log = []) (meets : Meets P D Q program)
    (stable : ∀ r t x w w', Q r t x w → Later P D t [] w w' → Q r t x w')
    (tells : ∀ {r t held w db events}, P.step r t held w ((World.mk db w.log).record t events) →
      ∀ event ∈ events, T r event) {t : Nat} {event : ε} (member : (t,event) ∈ s.world.log) :
    ∃ r state, s.session t = some ⟨r,state⟩ ∧ T r event := by
  induction reach with
  | refl => simp [silent] at member
  | @step a b action before taken admitted ih =>
    have earlier : (t,event) ∈ a.world.log → ∃ r state, b.session t = some ⟨r,state⟩ ∧ T r event := by
      intro old
      obtain ⟨r,state,present,told⟩ := ih old
      obtain ⟨state',present'⟩ := Reach.request_stays present taken
      exact ⟨r,state',present',told⟩
    obtain ⟨H,good⟩ := before.good first meets stable
    rcases good.change taken admitted with same | ⟨v,i,session,_,present,step⟩
    · exact earlier (same ▸ member)
    · obtain ⟨db,events,same⟩ := P.records step
      rw [same] at step member
      rw [World.log_record,List.mem_append,List.mem_map] at member
      rcases member with old | ⟨told,inside,equal⟩
      · exact earlier old
      · cases equal
        obtain ⟨state',present'⟩ := Reach.request_stays present taken
        exact ⟨_,state',present',tells step event inside⟩

end runs
end Relational
