import Dalm.Fresh
import Dalm.HandOuts
import Dalm.History

/-! Embedding results answered with an error, and embedding results submitted again. -/
namespace Dalm
open Relational SqlMatchFinalizationStore

/-- A delivery that ended in an error changed nothing with any of its statements, and once
one for a job was accepted all that start later and end are accepted too. -/
structure RepeatableDeliveries (run : Request → App Response) (D : Discipline Db Input Event)
    (start : Backend) : Prop where
  atomic : ∀ a b s t i id worker embedding error, Reach run D start a →
    a.step run (.exec t i) = some b → D.admits a b (.exec t i) → Reach run D b s →
    s.session t = some ⟨.embeddingResult id worker embedding,.inr (.error error)⟩ → b.db = a.db
  repeated : ∀ s u t t' id worker worker' embedding embedding' response x, Reach run D start s →
    s.session t = some ⟨.embeddingResult id worker embedding,.inr (.ok response)⟩ →
    s.session t' = none → Reach run D s u →
    u.session t' = some ⟨.embeddingResult id worker' embedding',.inr x⟩ → ∃ data, x = .ok data

/-- The source was not there to be listed for, or a candidate could not be taken. -/
def Event.disturbs : Event → Bool
  | .sourceRead _ available => !available
  | .passedOver _ _ => true
  | _ => false

/-- The database does not fail, and no delivery finds its source gone or passes over a
candidate. -/
def undisturbed : Discipline Db Input Event where
  input w ids := ids.Fresh w.db
  change w w' := ∀ t event, w' = w.record t [event] → event.disturbs = false
  deaths := False

/-- Two photos of different users. -/
def Rivals (q p : UUID) (db : Db) : Prop :=
  ∃ a b, db.photos.get? q = some a ∧ db.photos.get? p = some b ∧ a.userId ≠ b.userId

/-- A completed embedding job. -/
def Completed (id : UUID) (db : Db) : Prop :=
  ∃ job, db.job? .embedding id = some job ∧ job.status = .completed

section steps
variable {settings : Settings} {r : Request} {t : Nat} {held : List RowKey} {w : BackendWorld}
  {db : Db} {events : List Event}

theorem Change.rivals {q p : UUID} (change : Change settings r t held w db events)
    (rivals : Rivals q p w.db) : Rivals q p db := by
  obtain ⟨a,b,found₁,found₂,apart⟩ := rivals
  obtain ⟨a',after₁,_,follows₁⟩ := change.photo found₁
  obtain ⟨b',after₂,_,follows₂⟩ := change.photo found₂
  refine ⟨a',b',after₁,after₂,?_⟩
  rw [follows₁.owner,follows₂.owner]
  exact apart

theorem Change.completed {id : UUID} (change : Change settings r t held w db events)
    (completed : Completed id w.db) : Completed id db := by
  obtain ⟨job,found,status⟩ := completed
  have closed : job.item.phase = .closed := Job.item_closed (by simp [status]) (by simp [status])
  exact ⟨job,(change.leaves_closed found closed).1,status⟩

/-- A job is completed as soon as the history has the embedding of its photo. -/
theorem completed_of_stored {id photo : UUID} {job : Job} (inv : Inv settings w)
    (found : w.db.job? .embedding id = some job) (owner : job.photoId = photo)
    (stored : (t,.embeddingStored photo) ∈ w.log) : Completed id w.db := by
  subst owner
  have there := (inv.history.stored job.photoId).mpr ⟨t,stored⟩
  exact ⟨job,found,(inv.embeddings.completed id job found).mpr there⟩

end steps

section deliveries
variable {K : Type} [Field K] [LinearOrder K] [IsStrictOrderedRing K] [FloorRing K] {sqrt : ℚ → K}
  {settings : Settings} {D : Discipline Db Input Event} {t : Nat} {q p id : UUID}
  {w w' : BackendWorld}

theorem Passage.rivals (passage : Passage (protocol settings) D w w') (rivals : Rivals q p w.db) :
    Rivals q p w'.db := by
  refine passage_preserves (F := fun w => Rivals q p w.db) passage rivals ?_
  exact fun _ _ _ _ _ _ _ change before => change.rivals before

theorem Passage.completed (passage : Passage (protocol settings) D w w')
    (completed : Completed id w.db) : Completed id w'.db := by
  refine passage_preserves (F := fun w => Completed id w.db) passage completed ?_
  exact fun _ _ _ _ _ _ _ change before => change.completed before

theorem Passage.job {queue : Queue} {job : Job} (passage : Passage (protocol settings) D w w')
    (found : w.db.job? queue id = some job) :
    ∃ job', w'.db.job? queue id = some job' ∧ job'.photoId = job.photoId := by
  refine passage_preserves (F := fun w => ∃ job', w.db.job? queue id = some job' ∧
    job'.photoId = job.photoId) passage ⟨job,found,rfl⟩ ?_
  rintro r u held a db events _ change ⟨job',found',same⟩
  obtain ⟨job'',after,follows⟩ := change.jobs.present queue id job' found'
  exact ⟨job'',after,follows.photo.trans same⟩

/-- Whoever is listed is another user's. -/
theorem rivals_of_ranked {photo : Photo} {source : PhotoEmbeddingData} {now : Time}
    (passage : Passage (protocol settings) D w w') (owner : w.db.photos.get? q = some photo) :
    ∀ item ∈ rankedFor sqrt source (listed q photo now w'.db), Rivals q item.photoId w'.db := by
  intro item member
  obtain ⟨candidate,inside,_,rfl⟩ := mem_rankedFor.mp member
  obtain ⟨entry,taken,rfl⟩ := List.mem_map.mp inside
  obtain ⟨present,able,_⟩ := mem_eligibleRows.mp (List.mem_of_mem_take taken)
  obtain ⟨a,found,same,_⟩ := Passage.photo_follows passage owner
  have apart : entry.1.userId ≠ photo.userId := (of_decide_eq_true able).2.1
  exact ⟨a,entry.1,found,present,by rw [same]; exact apart.symm⟩

section undisturbed
variable (inputs : ∀ w ids, D.input w ids → ids.Fresh w.db)
  (changes : ∀ w w', D.change w w' → undisturbed.change w w')

include changes in
theorem Look.calm {event : Event} (look : Look D t w event) : event.disturbs = false := by
  rcases look.allowed with same | change
  · have length := congrArg (fun w : BackendWorld => w.log.length) same
    simp at length
  · exact changes _ _ change t event rfl

include inputs in
/-- A finalization of two users' photos is refused only for what the loop goes on after. -/
theorem Attempt.passable {error : Exc} (rivals : Rivals q p w.db)
    (attempt : Attempt settings D t q p w (.error error) w') : isPassedOver error := by
  cases attempt with
  | refused called input worked inv reason =>
    have entry := Passage.rivals called.passage rivals
    have here := Passage.rivals worked.passage entry
    cases reason with
    | missing absent =>
      obtain ⟨a,b,found₁,found₂,apart⟩ := entry
      rcases absent with rfl | gone | gone
      · cases Option.some.inj (found₁.symm.trans found₂)
        exact absurd rfl apart
      · cases found₁.symm.trans gone
      · cases found₂.symm.trans gone
    | @sameUser a b locked same =>
      obtain ⟨x,y,found₁,found₂,apart⟩ := here
      have photos := locked.found
      rcases locked.ids with ⟨rfl,rfl⟩ | ⟨rfl,rfl⟩
      · cases Option.some.inj (found₁.symm.trans photos.1)
        cases Option.some.inj (found₂.symm.trans photos.2)
        exact absurd same apart
      · cases Option.some.inj (found₁.symm.trans photos.2)
        cases Option.some.inj (found₂.symm.trans photos.1)
        exact absurd same.symm apart
    | changed => rfl
    | late => rfl
    | blocked => rfl
    | integrity ready drawn failed =>
      exact absurd failed (finalizeWrites_of_fresh inv ready (inputs _ _ drawn))

include inputs changes in
omit [IsStrictOrderedRing K] [FloorRing K] in
theorem Tries.succeeds {items : List (RankedCandidate K)} {x : Except Exc Orchestrated}
    (rivals : ∀ item ∈ items, Rivals q item.photoId w.db)
    (tries : Tries settings D t q w false items x w') : ∃ m, x = .ok ⟨m,false⟩ := by
  cases tries with
  | ended => exact ⟨none,rfl⟩
  | matched attempt => exact ⟨_,rfl⟩
  | failed attempt fatal =>
    have passable := attempt.passable inputs (rivals _ List.mem_cons_self)
    rw [fatal] at passable
    cases passable
  | passed attempt passed later inv look tail => cases look.calm changes

include inputs changes in
theorem Orchestrates.succeeds {x : Except Exc Orchestrated}
    (orchestrates : Orchestrates settings D sqrt t q w x w') : ∃ m, x = .ok ⟨m,false⟩ := by
  cases orchestrates with
  | unembedded => exact ⟨none,rfl⟩
  | unavailable read inv₁ stored called input found inv gone look => cases look.calm changes
  | @tried w₁ w₂ w₃ w₄ _ clock source photo _ read inv₁ stored called input found inv₃ owner searchable
      look₃ then_ inv₄ look₄ tries =>
    refine tries.succeeds inputs changes ?_
    exact rivals_of_ranked then_.passage owner

include inputs changes in
/-- An error can only come from the job itself, before anything is written. -/
theorem Delivers.refused_of_error {error : Exc}
    (delivers : Delivers settings D sqrt t id w (.error error) w') :
    Looks settings D t w w' ∧ ∃ w₀ start, D.input w₀ start ∧ Looks settings D t w₀ w' ∧
      ¬ Completed id w'.db := by
  generalize failed : Except.error error = y at delivers
  cases delivers with
  | refused called input looks inv open_ =>
    refine ⟨called.trans looks,_,_,input,looks,?_⟩
    rintro ⟨job,found,completed⟩
    exact open_ job found completed
  | repeated looks inv found completed orchestrates =>
    obtain ⟨m,rfl⟩ := orchestrates.succeeds inputs changes
    cases failed
  | stored looks inv found processing passage after orchestrates =>
    obtain ⟨m,rfl⟩ := orchestrates.succeeds inputs changes
    cases failed

end undisturbed

theorem Delivers.completes {data : EmbeddingResultData}
    (delivers : Delivers settings D sqrt t id w (.ok data) w') : Completed id w'.db := by
  generalize done : Except.ok data = y at delivers
  cases delivers with
  | refused => cases done
  | repeated looks inv found completed orchestrates =>
    exact Passage.completed orchestrates.onward.passage ⟨_,found,completed⟩
  | stored looks inv found processing passage after orchestrates =>
    obtain ⟨job',found',same⟩ := Passage.job passage found
    exact Passage.completed orchestrates.onward.passage (completed_of_stored (t := t) after found' same (by simp))

end deliveries

section runs
variable {K : Type} [Field K] [LinearOrder K] [IsStrictOrderedRing K] [FloorRing K]
  {settings : Settings} {sqrt : ℚ → K} {users : Table User.id} {a b s u : Backend} {t : Nat} {id : UUID}
  {worker : String} {embedding : PhotoEmbeddingData}

private theorem unchanged_of_error {i : Input} {error : Exc}
    (reach : Reach (program settings sqrt) undisturbed (launch users) a)
    (taken : a.step (program settings sqrt) (.exec t i) = some b)
    (admitted : undisturbed.admits a b (.exec t i))
    (onward : Reach (program settings sqrt) undisturbed b s)
    (ended : s.session t = some ⟨.embeddingResult id worker embedding,.inr (.error error)⟩) :
    b.world.db = a.world.db := by
  have reachable : Reachable settings sqrt users a := Reach.free reach
  rcases reachable.change taken with same | ⟨v,_,session,held,db,events,equal,_,_,change,same⟩
  · rw [same]
  · cases equal
    have until_ := Reach.step (.exec t i) reach taken admitted
    obtain ⟨w₀,w₁,y,inv,silent,delivers,answered,after⟩ :=
      outcome_of_reach (until_.trans onward) (fun dead => dead) ended
    cases y with
    | ok data => cases answered
    | error error =>
      have looks := (delivers.refused_of_error (fun _ _ fresh => fresh) fun _ _ change => change).1
      obtain ⟨more,told,each⟩ := (looks.trans (after.mono fun _ never => never.elim)).appends
      have further := onward.log_grows
      rw [same,World.log_record,told] at further
      have observed : ∀ event ∈ events, event.isObservation := by
        intro event member
        have inside : (t,event) ∈ w₀.log ++ more := by
          refine further.subset (List.mem_append.mpr (.inr ?_))
          exact List.mem_map_of_mem member
        rcases List.mem_append.mp inside with early | late
        · exact absurd rfl (silent _ early)
        · exact each _ late rfl
      rw [same]
      exact change.told.observed observed

/-- The same discipline where the job is completed already. -/
private def undisturbedAfter (id : UUID) : Discipline Db Input Event :=
  {undisturbed with input := fun w ids => ids.Fresh w.db ∧ Completed id w.db}

private theorem completed_of_answer {response : Response}
    (reach : Reach (program settings sqrt) undisturbed (launch users) s)
    (ended : s.session t = some ⟨.embeddingResult id worker embedding,.inr (.ok response)⟩) :
    Completed id s.world.db := by
  obtain ⟨w₀,w₁,y,_,_,delivers,answered,after⟩ :=
    outcome_of_reach reach (fun dead => dead) ended
  cases y with
  | ok data => exact Passage.completed after.passage delivers.completes
  | error error => cases answered

private theorem reach_completed (reach : Reach (program settings sqrt) undisturbed (launch users) s)
    (completed : Completed id s.world.db) (onward : Reach (program settings sqrt) undisturbed s u) :
    Reach (program settings sqrt) (undisturbedAfter id) s u := by
  have reachable : Reachable settings sqrt users s := Reach.free reach
  induction onward with
  | refl => exact .refl
  | @step v u action before taken admitted ih =>
    have there : Completed id v.world.db := by
      refine reachable.preserves (F := fun w => Completed id w.db) before completed ?_
      exact fun _ _ _ _ _ _ _ change _ before => change.completed before
    refine .step action ih taken ?_
    cases action with
    | start => trivial
    | exec => exact ⟨⟨admitted.1,there⟩,admitted.2⟩
    | die => exact admitted

private theorem accepted_again {response : Response} {t' : Nat} {worker' : String}
    {embedding' : PhotoEmbeddingData} {x : Except Exc Response}
    (reach : Reach (program settings sqrt) undisturbed (launch users) s)
    (ended : s.session t = some ⟨.embeddingResult id worker embedding,.inr (.ok response)⟩)
    (later : s.session t' = none) (onward : Reach (program settings sqrt) undisturbed s u)
    (again : u.session t' = some ⟨.embeddingResult id worker' embedding',.inr x⟩) :
    ∃ data, x = .ok data := by
  have completed := completed_of_answer reach ended
  have reachable : Reachable settings sqrt users s := Reach.free reach
  obtain ⟨w₀,w₁,y,_,_,delivers,rfl,_⟩ :=
    reachable.outcome (reach_completed reach completed onward) later (fun dead => dead) again
  cases y with
  | ok data => exact ⟨_,rfl⟩
  | error error =>
    obtain ⟨_,w,start,input,looks,open_⟩ :=
      delivers.refused_of_error (D := undisturbedAfter id) (fun _ _ both => both.1) fun _ _ change => change
    exact absurd (Passage.completed looks.passage input.2) open_

/-- Deliveries are atomic and repeatable in every run in which none finds its source gone
or passes over a candidate. -/
theorem repeatableDeliveries (settings : Settings) (sqrt : ℚ → K) (users : Table User.id) :
    RepeatableDeliveries (program settings sqrt) undisturbed (launch users) where
  atomic _ _ _ _ _ _ _ _ _ reach taken admitted onward ended :=
    unchanged_of_error reach taken admitted onward ended
  repeated _ _ _ _ _ _ _ _ _ _ _ reach ended later onward again :=
    accepted_again reach ended later onward again

end runs

-- Deliveries of two photos, each statement with identifiers of its own.
namespace Sample

def drawing (t : Nat) (r : Request) (n : Nat) (now : Time) : List (Action Input Exc Request) :=
  .start t r :: (List.range n).map fun k => .exec t (input now (1000 * t + 10 * k))

def embedding : PhotoEmbeddingData := ⟨[1],[1],[1],[1],[1],[],['m'],['1'],by decide,by decide⟩

def delivery (t : Nat) (job : UUID) (n : Nat) : List (Action Input Exc Request) :=
  drawing t (.embeddingResult job "worker" embedding) n 2

/-- Two uploads, the claims of their embeddings and the delivery of the first. -/
def deliveredOne : List (Action Input Exc Request) :=
  drawing 1 (upload 11 1 true) 13 0 ++ drawing 2 (upload 12 2 true) 13 0 ++
    drawing 3 (.claim .embedding "worker") 6 1 ++ drawing 4 (.claim .embedding "worker") 6 1 ++
    delivery 5 1101 10

/-- The second delivery matches the two photos. -/
def deliveredBoth : List (Action Input Exc Request) := deliveredOne ++ delivery 6 2101 17

def isFresh (s : Backend) : Action Input Exc Request → Backend → Bool
  | .start _ _,_ => true
  | .exec _ ids,_ => ids.Fresh s.world.db
  | .die _ _,_ => false

def isUndisturbed (s : Backend) (action : Action Input Exc Request) (u : Backend) : Bool :=
  isFresh s action u &&
    (u.world.log.drop s.world.log.length).all fun entry => !entry.2.disturbs

theorem fresh_sound (s : Backend) (action : Action Input Exc Request) (u : Backend)
    (passes : isFresh s action u = true) : fresh.admits s u action := by
  cases action with
  | start => trivial
  | exec t ids =>
    have drawn : ids.Fresh s.world.db := of_decide_eq_true passes
    exact ⟨drawn,.inr trivial⟩
  | die => cases passes

theorem undisturbed_sound (s : Backend) (action : Action Input Exc Request) (u : Backend)
    (passes : isUndisturbed s action u = true) : undisturbed.admits s u action := by
  obtain ⟨drawn,calm⟩ := (Bool.and_eq_true _ _).mp passes
  cases action with
  | start => trivial
  | exec t ids =>
    have drawn : ids.Fresh s.world.db := of_decide_eq_true drawn
    refine ⟨drawn,.inr fun v event same => ?_⟩
    rw [same,World.log_record,List.drop_left] at calm
    simpa using calm
  | die => cases drawn

/-- Whether a delivery for this job ended in an answer. -/
def answered (s : Backend) (t : Nat) (job : UUID) : Option Bool :=
  match s.session t with
  | some ⟨.embeddingResult id _ _,.inr x⟩ => if id = job then some x.isOk else none
  | _ => none

theorem answered_session {s : Backend} {t : Nat} {job : UUID} {ok : Bool}
    (told : answered s t job = some ok) : ∃ worker embedding x,
      s.session t = some ⟨.embeddingResult job worker embedding,.inr x⟩ ∧ x.isOk = ok := by
  unfold answered at told
  split at told
  next id worker embedding x present =>
    split at told
    next same =>
      subst same
      exact ⟨worker,embedding,x,present,Option.some.inj told⟩
    next => cases told
  next => cases told

end Sample

/-- A result submitted again before there is a match. -/
theorem repeatableDeliveries_again : ∃ (s u : Backend) (x : Except Exc Response),
     Sample.answered s 5 1101 = some true ∧
    (∃ worker embedding, u.session 7 = some ⟨.embeddingResult 1101 worker embedding,.inr x⟩) ∧
    ∃ data, x = .ok data := by
  obtain ⟨s,u,first,told,second,again⟩ := Sample.continued
    (fun s action u => undisturbed.admits s u action) Sample.isUndisturbed Sample.undisturbed_sound
    Sample.deliveredOne (Sample.delivery 7 1101 8)
    (fun s => Sample.answered s 5 1101 = some true ∧ (s.session 7).isNone)
    (fun u => (Sample.answered u 7 1101).isSome) (by decide +kernel)
  obtain ⟨told,later⟩ := of_decide_eq_true told
  obtain ⟨ok,again⟩ := Option.isSome_iff_exists.mp again
  obtain ⟨worker,embedding,x,ended,good⟩ := Sample.answered_session told
  obtain ⟨worker',embedding',x',ended',_⟩ := Sample.answered_session again
  cases x with
  | error => cases good
  | ok response =>
    refine ⟨s,u,x',told,⟨worker',embedding',ended'⟩,?_⟩
    exact (repeatableDeliveries Sample.settings Rat.sqrt Sample.users).repeated s u 5 7 1101 _ _ _ _ response
      x' (Reach.of_runs first fun _ _ _ admitted => admitted) ended (Option.isNone_iff_eq_none.mp later)
      (Reach.of_runs second fun _ _ _ admitted => admitted) ended'

/-- A result submitted again after its delivery matched the photo. -/
theorem repeated_after_match : ¬ ∀ (settings : Settings) (users : Table User.id),
    RepeatableDeliveries (program settings Rat.sqrt) fresh (launch users) := by
  intro claim
  obtain ⟨s,u,first,told,second,again⟩ := Sample.continued
    (fun s action u => fresh.admits s u action) Sample.isFresh Sample.fresh_sound
    Sample.deliveredBoth (Sample.delivery 7 2101 7)
    (fun s => Sample.answered s 6 2101 = some true ∧ (s.session 7).isNone)
    (fun u => Sample.answered u 7 2101 = some false) (by decide +kernel)
  obtain ⟨told,later⟩ := of_decide_eq_true told
  obtain ⟨worker,embedding,x,ended,good⟩ := Sample.answered_session told
  obtain ⟨worker',embedding',x',ended',bad⟩ := Sample.answered_session (of_decide_eq_true again)
  cases x with
  | error => cases good
  | ok response =>
    obtain ⟨data,rfl⟩ := (claim Sample.settings Sample.users).repeated s u 6 7 2101 _ _ _ _ response
      x' (Reach.of_runs first fun _ _ _ admitted => admitted) ended (Option.isNone_iff_eq_none.mp later)
      (Reach.of_runs second fun _ _ _ admitted => admitted) ended'
    cases bad

end Dalm
