import Dalm.History
import Dalm.Reachable

/-! Matches and the blocks committed before them. finalize checks for a block, then
commits; a block that commits in between is not seen. -/
namespace Dalm
open Relational

/-- A block of the pair that still stands was committed after session `t` looked for one
and found none. -/
def blockedSince (t : Nat) (first second : UUID) (log : List (Nat × Event)) : Prop :=
  ∃ before after, log = before ++ (t,.blocksChecked first second false) :: after ∧
    (∀ entry ∈ after, entry.1 ≠ t) ∧
    ∃ blocker blocked, ((blocker,blocked) = (first,second) ∨ (blocker,blocked) = (second,first)) ∧
      ∃ earlier u later, after = earlier ++ (u,.blocked blocker blocked) :: later ∧
        ∀ entry ∈ later, entry.2 ≠ .unblocked blocker blocked

section histories
variable {x y : UUID}

theorem standsAfter_other {standing : Bool} {event : Event} (blocks : event ≠ .blocked x y)
    (unblocks : event ≠ .unblocked x y) : standsAfter x y standing event = standing := by
  cases event with
  | blocked first second =>
    have different : (first,second) ≠ (x,y) := by
      intro same
      cases same
      exact blocks rfl
    exact if_neg different
  | unblocked first second =>
    have different : (first,second) ≠ (x,y) := by
      intro same
      cases same
      exact unblocks rfl
    exact if_neg different
  | _ => rfl

theorem stays_standing {events : List Event} (kept : ∀ event ∈ events, event ≠ .unblocked x y) :
    events.foldl (standsAfter x y) true = true := by
  induction events with
  | nil => rfl
  | cons event events ih =>
    have next : standsAfter x y true event = true := by
      by_cases same : event = .blocked x y
      · rw [same]
        exact if_pos rfl
      · exact standsAfter_other same (kept event List.mem_cons_self)
    rw [List.foldl_cons,next]
    exact ih fun other member => kept other (List.mem_cons_of_mem _ member)

/-- A block stands exactly when it was committed and not taken back since. -/
theorem blockedAt_iff {log : List (Nat × Event)} : blockedAt x y log = true ↔
      ∃ earlier u later, log = earlier ++ (u,.blocked x y) :: later ∧
        ∀ entry ∈ later, entry.2 ≠ .unblocked x y := by
  constructor
  · intro stands
    induction log using List.reverseRecOn with
    | nil => cases stands
    | append_singleton log entry ih =>
      obtain ⟨u,event⟩ := entry
      rw [blockedAt,List.map_append,List.foldl_append] at stands
      by_cases blocks : event = .blocked x y
      · exact ⟨log,u,[],by rw [blocks],by simp⟩
      · by_cases unblocks : event = .unblocked x y
        · subst unblocks
          simp [standsAfter] at stands
        · change standsAfter x y _ event = true at stands
          rw [standsAfter_other blocks unblocks] at stands
          obtain ⟨earlier,v,later,rfl,kept⟩ := ih stands
          refine ⟨earlier,v,later ++ [(u,event)],by simp,?_⟩
          intro other member
          rcases List.mem_append.mp member with member | member
          · exact kept other member
          · rw [List.mem_singleton.mp member]
            exact unblocks
  · rintro ⟨earlier,u,later,rfl,kept⟩
    rw [blockedAt,List.map_append,List.foldl_append,List.map_cons,List.foldl_cons]
    have blocks : ∀ standing, standsAfter x y standing (.blocked x y) = true := fun _ => if_pos rfl
    rw [blocks]
    refine stays_standing fun event member => ?_
    obtain ⟨entry,inside,rfl⟩ := List.mem_map.mp member
    exact kept entry inside

/-- Between the check and now only a block since can stand. -/
theorem blocked_iff_since {t : Nat} {first second : UUID} {log : List (Nat × Event)}
    (checked : checkedFree t first second log) :
    (blockedAt first second log = true ∨ blockedAt second first log = true) ↔
      blockedSince t first second log := by
  constructor
  · intro stands
    obtain ⟨before,after,rfl,silent,free,free'⟩ := checked
    have since : ∀ {x y}, blockedAt x y before = false →
        blockedAt x y (before ++ (t,.blocksChecked first second false) :: after) = blockedAt x y after := by
      intro x y free
      rw [blockedAt] at free
      rw [blockedAt,List.map_append,List.foldl_append,free]
      rfl
    rw [since free,since free',blockedAt_iff,blockedAt_iff] at stands
    rcases stands with kept | kept
    · exact ⟨before,after,rfl,silent,first,second,.inl rfl,kept⟩
    · exact ⟨before,after,rfl,silent,second,first,.inr rfl,kept⟩
  · rintro ⟨before,after,rfl,_,x,y,pair,earlier,u,later,rfl,kept⟩
    have stands : blockedAt x y (before ++ (t,.blocksChecked first second false) ::
        (earlier ++ (u,.blocked x y) :: later)) = true :=
      blockedAt_iff.mpr ⟨before ++ (t,.blocksChecked first second false) :: earlier,u,later,by simp,kept⟩
    rcases pair with same | same <;> cases same
    · exact .inl stands
    · exact .inr stands

end histories

section runs
variable {K : Type} [Field K] [LinearOrder K] [IsStrictOrderedRing K] [FloorRing K]
  {settings : Settings} {sqrt : ℚ → K} {users : Table User.id} {s u : Backend}

/-- The state a match was committed in. -/
structure CommittedIn (run : Request → App Response) (s : Backend) (earlier : List (Nat × Event))
    (t : Nat) (first second : UUID) (here : Backend) : Prop where
  onward : Reach run Discipline.none here s
  history : here.world.log = earlier
  checked : ∃ a b, here.db.photos.get? first = some a ∧ here.db.photos.get? second = some b ∧
    checkedFree t a.userId b.userId earlier

/-- Every match of the history was committed in a state of the run. -/
theorem Reachable.committed (reachable : Reachable settings sqrt users s) :
    ∀ earlier t m first second now later,
      s.world.log = earlier ++ (t,.matched m first second now) :: later →
      ∃ here, Reachable settings sqrt users here ∧
        CommittedIn (program settings sqrt) s earlier t first second here := by
  have start : Reachable settings sqrt users (launch users) := .refl
  induction reachable with
  | refl =>
    intro earlier t m first second now later told
    exact absurd told (by simp [launch,System.initial,System.world])
  | @step v u action before taken admitted ih =>
    intro earlier t m first second now later told
    have here : Reachable settings sqrt users v := before
    have last : Reach (program settings sqrt) Discipline.none v u :=
      .step action .refl taken (Reach.admits_none action)
    have past : ∀ later, v.world.log = earlier ++ (t,.matched m first second now) :: later →
        ∃ here, Reachable settings sqrt users here ∧
          CommittedIn (program settings sqrt) u earlier t first second here := by
      intro later told
      obtain ⟨here,reached,committed⟩ := ih earlier t m first second now later told
      exact ⟨here,reached,committed.onward.trans last,committed.history,committed.checked⟩
    rcases here.change taken with same | ⟨v',i,session,held,db,events,_,_,_,change,same⟩
    · rw [same] at told
      exact past later told
    · rw [same,World.log_record] at told
      rcases World.told_cases told with ⟨later,told⟩ | ⟨between,rfl,new⟩
      · exact past later told
      · have member : (t,Event.matched m first second now) ∈ events.map fun event => (v',event) := by
          rw [new]
          simp
        obtain ⟨event,inside,equal⟩ := List.mem_map.mp member
        cases equal
        obtain ⟨rfl,a,b,found₁,found₂,_,checked⟩ := change.told.matched m first second now inside
        have nothing : between = [] := by
          have length := congrArg List.length new
          simp only [List.map_cons,List.map_nil,List.length_append,List.length_cons,List.length_nil] at length
          exact List.eq_nil_of_length_eq_zero (by omega)
        subst nothing
        rw [List.append_nil]
        exact ⟨v,here,last,rfl,a,b,found₁,found₂,checked⟩

/-- A block between two users keeps every later match of them from being committed, save
where it was committed after that finalization had looked for one. -/
theorem blocksWin (reachable : Reachable settings sqrt users s) {earlier later : List (Nat × Event)}
    {t : Nat} {m first second : UUID} {now : Time}
    (told : s.world.log = earlier ++ (t,.matched m first second now) :: later) :
    ∃ here a b, Reachable settings sqrt users here ∧
      Reach (program settings sqrt) Discipline.none here s ∧ here.world.log = earlier ∧
      here.db.photos.get? first = some a ∧ here.db.photos.get? second = some b ∧
      (here.db.blockedBetween a.userId b.userId = false ↔ ¬ blockedSince t a.userId b.userId earlier) := by
  obtain ⟨here,reached,committed⟩ := reachable.committed earlier t m first second now later told
  obtain ⟨onward,history,a,b,found₁,found₂,checked⟩ := committed
  refine ⟨here,a,b,reached,onward,history,found₁,found₂,?_⟩
  have blocks := reached.inv.history.blocks
  rw [history] at blocks
  rw [← blocked_iff_since checked,Bool.eq_false_iff,not_iff_not]
  change here.world.db.blockedBetween a.userId b.userId = true ↔ _
  rw [Db.blockedBetween_eq,Bool.or_eq_true,blocks,blocks]

end runs

theorem blocksWin_matched : ∃ (s : Backend) (earlier : List (Nat × Event)),
    s.world.log = earlier ++ [(3,.matched 300 11 12 5)] ∧
    ∃ here a b, Reachable Sample.settings Rat.sqrt Sample.users here ∧
      Reach (program Sample.settings Rat.sqrt) Discipline.none here s ∧ here.world.log = earlier ∧
      here.db.photos.get? 11 = some a ∧ here.db.photos.get? 12 = some b ∧
      (here.db.blockedBetween a.userId b.userId = false ↔ ¬ blockedSince 3 a.userId b.userId earlier) := by
  obtain ⟨s,_,reachable,last⟩ := Sample.reached Sample.matched
    (fun s => s.world.log.getLast? = some (3,.matched 300 11 12 5)) (by decide +kernel)
  obtain ⟨earlier,told⟩ := List.getLast?_eq_some_iff.mp (of_decide_eq_true last)
  exact ⟨s,earlier,told,blocksWin reachable told⟩

/-- A block that commits after a finalization looked for it and before that commits. -/
def Sample.overlooked : List (Action Input Exc Request) :=
  Sample.paired ++ Sample.session 4 (.block 1 2) 4 (Sample.input 6 400)

theorem block_overlooked : ¬ ∀ (settings : Settings) (users : Table User.id) (s u : Backend)
    (action : Action Input Exc Request) (t : Nat) (m first second : UUID) (now : Time) (a b : Photo),
      Reachable settings Rat.sqrt users s → s.step (program settings Rat.sqrt) action = some u →
      u.world.log = s.world.log ++ [(t,.matched m first second now)] →
      s.db.photos.get? first = some a → s.db.photos.get? second = some b →
        s.db.blockedBetween a.userId b.userId = false := by
  intro claim
  obtain ⟨s,_,reachable,passed⟩ := Sample.reached Sample.overlooked (fun s =>
    (s.step (program Sample.settings Rat.sqrt) (.exec 3 (Sample.input 5 300))).any fun u =>
      u.world.log = s.world.log ++ [(3,.matched 300 11 12 5)] ∧
      (s.db.photos.get? 11).any fun a => (s.db.photos.get? 12).any fun b =>
        s.db.blockedBetween a.userId b.userId) (by decide +kernel)
  obtain ⟨u,taken,passed⟩ := (Option.any_eq_true _ _).mp passed
  obtain ⟨told,passed⟩ := of_decide_eq_true passed
  obtain ⟨a,found₁,passed⟩ := (Option.any_eq_true _ _).mp passed
  obtain ⟨b,found₂,blocked⟩ := (Option.any_eq_true _ _).mp passed
  rw [claim _ _ s u _ 3 300 11 12 5 a b reachable taken told found₁ found₂] at blocked
  cases blocked

end Dalm
