import Dalm.Reachable
import Dalm.Relational.Notes

/-! Reports that race with blocks of the same user. A report on a user reads whether the block is
there, and commits with or without one; a block or an unblock in between makes its commit fail or
leave no block. -/
namespace Dalm
open Relational Txn

section changes
variable {settings : Settings} {r : Request} {t : Nat} {held : List RowKey} {w : BackendWorld}
  {db : Db} {events : List Event}

/-- A report of this reporter for this target is there. -/
def Reported (arguments : ReportRepository.Arguments) (db : Db) : Prop :=
  ∃ report ∈ db.reports.rows, report.reporterId = arguments.reporterId ∧
    report.targetType = arguments.targetType ∧ report.targetId = arguments.targetId

/-- What a change made of the reports: nothing, or one more of the request's. -/
def ReportsFollow (r : Request) (before after : Db) : Prop :=
  after.reports = before.reports ∨ ∃ arguments report, r = .report arguments ∧
    after.reports.rows = before.reports.rows ++ [report]

theorem Change.reports (change : Change settings r t held w db events) : ReportsFollow r w.db db := by
  cases change with
  | observed | timedOut | deleted | unblocked | account | postcardRead => exact .inl rfl
  | @postcardDeleted _ _ _ side => cases side <;> exact .inl rfl
  | abandoned | handed | retried | embeddingFailed => exact .inl (by simp)
  | @created _ mock =>
    rename_i written
    cases mock with
    | false =>
      obtain ⟨_,_,_,_,rfl⟩ := HomeRepository.createWrites_plain written
      exact .inl rfl
    | true =>
      obtain ⟨_,_,_,_,_,_,_,rfl⟩ := HomeRepository.createWrites_mock written
      exact .inl rfl
  | @judged _ result _ _ _ _ _ _ _ asked locked present owned owner accepted written =>
    cases verdict : result.status with
    | passed =>
      obtain ⟨_,_,_,_,rfl⟩ := PhotoValidationRepository.resultWrites_passed verdict written
      exact .inl rfl
    | rejected =>
      obtain ⟨_,_,rfl⟩ := PhotoValidationRepository.resultWrites_rejected verdict written
      exact .inl rfl
  | @validationFailed _ _ _ failedPhoto _ _ _ _ _ asked locked present owned owner written =>
    by_cases validating : failedPhoto.status = .validating
    · obtain ⟨_,_,rfl⟩ := PhotoValidationRepository.failureWrites_validating validating written
      exact .inl rfl
    · obtain ⟨_,rfl⟩ := PhotoValidationRepository.failureWrites_other validating written
      exact .inl (by simp)
  | embedded asked locked present owned written =>
    obtain ⟨_,_,rfl⟩ := PhotoEmbeddingJobRepository.resultWrites_eq written
    exact .inl (by simp)
  | expired asked locked written =>
    obtain ⟨_,_,rfl⟩ := SqlExpirationStore.expireWrites_eq written
    exact .inl rfl
  | matched asked locked present apart searching timely checked written =>
    obtain ⟨_,_,_,_,_,rfl⟩ := SqlMatchFinalizationStore.finalizeWrites_eq written
    exact .inl rfl
  | blocked asked written =>
    obtain ⟨_,_,rfl⟩ := SafetyRepository.blockWrites_eq written
    exact .inl rfl
  | sent asked pair locked parties turn reply written =>
    obtain ⟨_,_,_,rfl⟩ := PostcardRepository.sendWrites_eq written
    exact .inl rfl
  | @reportedUser arguments report already start db events asked written =>
    refine .inr ⟨arguments,report,asked,?_⟩
    rcases ReportRepository.reportUserWrites_eq written with ⟨_,_,rfl⟩ | ⟨_,_,_,rfl⟩ <;> rfl
  | @reportedPhoto arguments report row now db events asked locked written =>
    obtain ⟨_,_,rfl⟩ := ReportRepository.reportPhotoWrites_eq written
    refine .inr ⟨arguments,report,asked,?_⟩
    cases row <;> rfl

end changes
namespace ReportRepository

/-- The commit of a report on a user, once the block has been read. -/
def fileUser (arguments : Arguments) (report : Report) (start : Time) (already : Bool) : App Unit := do
  let _ ← commitOr reportAlreadyExists fun _ db => reportUserWrites arguments report already start db
  return ()

/-- The commit of a report on a photo. -/
def filePhoto (arguments : Arguments) (report : Report) (participant : Option MatchParticipant)
    (now : Time) : App Unit := do
  let _ ← commitOr reportAlreadyExists fun _ db => reportPhotoWrites arguments report participant now db
  return ()

/-- The session of a program that answers nothing. -/
def done (p : App Unit) : App Response := p >>= fun _ => return .done

/-- What a report session knows: that the two users are there, and whether the block was when it
last looked. -/
structure Known where
  reporter : Bool
  target : Bool
  blocked : Option Bool

/-- The last statement of a report session is the commit of its report. -/
inductive Files (arguments : Arguments) (known : Known) : Report → App Response → Prop where
  | user {report : Report} {start : Time} {already : Bool} (asked : arguments.targetType = .user)
      (apart : arguments.targetId ≠ arguments.reporterId) (target : known.target)
      (read : known.blocked = some already) :
    Files arguments known report (done (fileUser arguments report start already))
  | photo {report : Report} {participant : Option MatchParticipant} {now : Time}
      (asked : arguments.targetType = .photo) :
    Files arguments known report (done (filePhoto arguments report participant now))

def book (arguments : Arguments) : Notebook Db RowKey Input Event Exc Response Known where
  note db known := ⟨known.reporter || (db.users.get? arguments.reporterId).isSome,
    known.target || (db.users.get? arguments.targetId).isSome,
    some (db.blocks.get? (arguments.reporterId,arguments.targetId)).isSome⟩
  fade known := {known with blocked := none}
  raises _ error := error ≠ reportAlreadyExists
  commits known p := known.reporter ∧ ∃ id start, Files arguments known (newReport arguments id start) p

variable {arguments : Arguments} {known : Known}

theorem known_of_userExists {db : Db} {id : UUID} (there : userExists db id = true) :
    (db.users.get? id).isSome := by
  obtain ⟨user,found,_⟩ := (Option.any_eq_true _ _).mp there
  rw [found]
  rfl

theorem known_of_insertReport {db : Db} {report : Report} (flushed : (db.insertReport report).isSome) :
    (db.users.get? report.reporterId).isSome := by
  obtain ⟨db',inserted⟩ := Option.isSome_iff_exists.mp flushed
  exact (Db.insertReport_eq_some.mp inserted).1.1

theorem notes_createForUser (asked : arguments.targetType = .user) :
    (done (createForUser arguments)).Notes (book arguments) known := by
  unfold createForUser
  split
  next => exact fun same => by cases same
  next apart =>
    refine fun start db => ?_
    change ((if ¬ userExists db arguments.targetId = true then (throw reportTargetNotFound : App Unit)
      else _).bind _).Notes _ _
    split
    next => exact fun same => by cases same
    next there =>
      refine fun row db' => ?_
      change (((if (db'.insertReport _).isSome = true then (pure () : App Unit)
        else throw .integrityError).bind _).bind _).Notes _ _
      split
      next flushed =>
        have target : (db.users.get? arguments.targetId).isSome = true :=
          known_of_userExists (not_not.mp there)
        have reporter : (db'.users.get? arguments.reporterId).isSome = true := known_of_insertReport flushed
        refine fun db'' => ⟨?_,start.uuid 0,start.now,.user asked apart ?_ rfl⟩
        · simp [book,reporter]
        · simp [book,target]
      next => exact fun same => by cases same

theorem notes_createForPhoto (asked : arguments.targetType = .photo) :
    (done (createForPhoto arguments)).Notes (book arguments) known := by
  refine fun start db => ?_
  change ((if ¬ _ = true then (throw reportTargetNotFound : App Unit) else _).bind _).Notes _ _
  split
  next => exact fun same => by cases same
  next there =>
    refine fun row db' => ?_
    change (((if (db'.insertReport _).isSome = true then (pure () : App Unit)
      else throw .integrityError).bind _).bind _).Notes _ _
    split
    next flushed =>
      have reporter : (db'.users.get? arguments.reporterId).isSome = true := known_of_insertReport flushed
      refine fun db'' => ?_
      simp only [Txn.bind]
      split
      next => exact ⟨by simp [book,reporter],start.uuid 0,start.now,.photo asked⟩
      next own =>
        refine fun clock row => ⟨?_,start.uuid 0,start.now,.photo asked⟩
        simp [book,reporter]
    next => exact fun same => by cases same

theorem notes_create : (done (create arguments)).Notes (book arguments) known := by
  unfold create
  split
  next asked => exact notes_createForUser asked
  next asked => exact notes_createForPhoto asked
  next => exact fun same => by cases same

section filing
variable {known : Known} {db db' : Db} {events : List Event} {id : UUID} {start now : Time}

/-- What a report session may rely on, as the database is. -/
structure Prepared (arguments : Arguments) (known : Known) (db : Db) (p : App Response) : Prop where
  notes : p.Notes (book arguments) known
  reporter : known.reporter → (db.users.get? arguments.reporterId).isSome
  target : known.target → (db.users.get? arguments.targetId).isSome
  blocked : arguments.targetType = .user → p.isCommit → ∀ already, known.blocked = some already →
    (db.blocks.get? (arguments.reporterId,arguments.targetId)).isSome = already

/-- Only a report that is there already keeps one out whose identifier is unused. -/
theorem reported_of_insertReport (reporter : (db.users.get? arguments.reporterId).isSome)
    (unused : db.reports.get? id = none) (refused : db.insertReport (newReport arguments id start) = none) :
    Reported arguments db := by
  by_contra absent
  have single : db.reports.rows.all fun other =>
      (arguments.reporterId,arguments.targetType,arguments.targetId) ≠
        (other.reporterId,other.targetType,other.targetId) := by
    refine List.all_eq_true.mpr fun other member => decide_eq_true fun same => absent ?_
    obtain ⟨one,rest⟩ := Prod.ext_iff.mp same
    obtain ⟨two,three⟩ := Prod.ext_iff.mp rest
    exact ⟨other,member,one.symm,two.symm,three.symm⟩
  have inserted : db.insertReport (newReport arguments id start) =
      some {db with reports := db.reports.insert (newReport arguments id start) unused} :=
    Db.insertReport_eq_some.mpr ⟨⟨reporter,single⟩,unused,rfl⟩
  rw [refused] at inserted
  cases inserted

/-- A report on a user that commits leaves its block, if the block was still as it was read. -/
theorem reportUserWrites_blocked {already : Bool}
    (current : (db.blocks.get? (arguments.reporterId,arguments.targetId)).isSome = already)
    (written : reportUserWrites arguments (newReport arguments id start) already now db =
      some (db',events)) : (db'.blocks.get? (arguments.reporterId,arguments.targetId)).isSome := by
  simp only [reportUserWrites,Option.bind_eq_bind,Option.bind_eq_some_iff] at written
  obtain ⟨_,reported,rest⟩ := written
  obtain ⟨_,freshReport,rfl⟩ := Db.insertReport_eq_some.mp reported
  split at rest
  next yes =>
    simp only [pure,Option.some.injEq,Prod.mk.injEq] at rest
    obtain ⟨rfl,_⟩ := rest
    exact current.trans yes
  next =>
    simp only [Option.bind_eq_some_iff,Db.insertBlock_eq_some] at rest
    obtain ⟨_,⟨_,fresh,rfl⟩,done⟩ := rest
    simp only [pure,Option.some.injEq,Prod.mk.injEq] at done
    obtain ⟨rfl,_⟩ := done
    rw [show (db.blocks.insert _ fresh).get? (arguments.reporterId,arguments.targetId) = _ from
      Table.get?_insert_self fresh]
    rfl

/-- It is refused only where there is a report already, if the block is still as it was read. -/
theorem reported_of_refused {already : Bool} (apart : arguments.targetId ≠ arguments.reporterId)
    (reporter : (db.users.get? arguments.reporterId).isSome)
    (target : (db.users.get? arguments.targetId).isSome) (unused : db.reports.get? id = none)
    (current : (db.blocks.get? (arguments.reporterId,arguments.targetId)).isSome = already)
    (refused : reportUserWrites arguments (newReport arguments id start) already now db = none) :
    Reported arguments db := by
  cases inserted : db.insertReport (newReport arguments id start) with
  | none => exact reported_of_insertReport reporter unused inserted
  | some reported =>
    exfalso
    obtain ⟨_,freshReport,rfl⟩ := Db.insertReport_eq_some.mp inserted
    cases already with
    | true => simp [reportUserWrites,inserted] at refused
    | false =>
      have fresh : db.blocks.get? (arguments.reporterId,arguments.targetId) = none := by
        simpa using current
      have blocked : Db.insertBlock {db with reports := db.reports.insert _ freshReport}
          ⟨arguments.reporterId,arguments.targetId,now⟩ = some {db with
            reports := db.reports.insert _ freshReport
            blocks := db.blocks.insert ⟨arguments.reporterId,arguments.targetId,now⟩ fresh} :=
        Db.insertBlock_eq_some.mpr ⟨⟨reporter,target,apart.symm⟩,fresh,rfl⟩
      simp [reportUserWrites,inserted,blocked] at refused

theorem reported_of_photoRefused {participant : Option MatchParticipant}
    (reporter : (db.users.get? arguments.reporterId).isSome) (unused : db.reports.get? id = none)
    (refused : reportPhotoWrites arguments (newReport arguments id start) participant now db = none) :
    Reported arguments db := by
  cases inserted : db.insertReport (newReport arguments id start) with
  | none => exact reported_of_insertReport reporter unused inserted
  | some reported =>
    cases participant <;> simp [reportPhotoWrites,inserted] at refused

end filing
/-- How a report session commits: its report is there and, if it is on a user, so is the block; or
it is refused for a report that is there. -/
inductive Committed (arguments : Arguments) (id : UUID) (start : Time) (before after : Db) :
    App Response ⊕ Except Exc Response → Prop where
  | filed (written : after.reports.rows = before.reports.rows ++ [newReport arguments id start])
      (blocked : arguments.targetType = .user →
        (after.blocks.get? (arguments.reporterId,arguments.targetId)).isSome) :
    Committed arguments id start before after (.inl (.ret .done))
  | refused (same : after = before) (reported : Reported arguments before) :
    Committed arguments id start before after (.inl (.raise reportAlreadyExists))

theorem prepared_create (db : Db) : Prepared arguments ⟨false,false,none⟩ db (done (create arguments)) where
  notes := notes_create
  reporter seen := by cases seen
  target seen := by cases seen
  blocked _ _ _ read := by cases read

theorem Prepared.commits {p : App Response} {t : Nat} {i : Input} {id : UUID} {start : Time}
    {store store' : Store Db RowKey Event} {state : App Response ⊕ Except Exc Response}
    (prepared : Prepared arguments known store.world.db p) (reporter : known.reporter)
    (files : Files arguments known (newReport arguments id start) p)
    (unused : store.world.db.reports.get? id = none) (ran : p.exec t i store = some (store',state)) :
    Committed arguments id start store.world.db store'.world.db state := by
  have there := prepared.reporter reporter
  cases files with
  | @user start' already asked apart target read =>
    have current := prepared.blocked asked rfl already read
    rcases exec_commit ran with ⟨db,events,written,same,rfl⟩ | ⟨refused,rfl,rfl⟩
    · refine .filed ?_ fun _ => ?_
      · rw [same]
        rcases reportUserWrites_eq written with ⟨_,_,rfl⟩ | ⟨_,_,_,rfl⟩ <;> rfl
      · rw [same]
        exact reportUserWrites_blocked current written
    · exact .refused rfl (reported_of_refused apart there (prepared.target target) unused current refused)
  | @photo participant now asked =>
    rcases exec_commit ran with ⟨db,events,written,same,rfl⟩ | ⟨refused,rfl,rfl⟩
    · refine .filed ?_ fun user => ?_
      · rw [same]
        obtain ⟨_,_,rfl⟩ := reportPhotoWrites_eq written
        cases participant <;> rfl
      · rw [asked] at user
        cases user
    · exact .refused rfl (reported_of_photoRefused there unused refused)

end ReportRepository
section runs
open ReportRepository
variable {K : Type} [Field K] [LinearOrder K] [IsStrictOrderedRing K] [FloorRing K]
  {settings : Settings} {sqrt : ℚ → K} {users : Table User.id} {s : Backend} {t : Nat}
  {arguments : Arguments}

/-- Session `t` commits its report next; one on a user has looked for the block. -/
inductive Filing (s : Backend) (t : Nat) (arguments : Arguments) (report : Report) : Prop where
  | user {start : Time} {already : Bool} (asked : arguments.targetType = .user)
      (there : s.session t =
        some ⟨.report arguments,.inl (done (fileUser arguments report start already))⟩)
  | photo {participant : Option MatchParticipant} {now : Time} (asked : arguments.targetType = .photo)
      (there : s.session t =
        some ⟨.report arguments,.inl (done (filePhoto arguments report participant now))⟩)

/-- What is expected of identifiers and failures: a report that commits does not reuse one, and no
session dies with the error of a report. -/
def Regular (s : Backend) : Action Input Exc Request → Prop
  | .start _ _ => True
  | .exec t _ => ∀ arguments report, Filing s t arguments report → s.db.reports.get? report.id = none
  | .die _ error => error ≠ reportAlreadyExists

/-- The step leaves the block of a user as it is whom another session is about to report. -/
def Untouched (s : Backend) (action : Action Input Exc Request) (s' : Backend) : Prop :=
  ∀ t arguments report, Filing s t arguments report → arguments.targetType = .user →
    Reach.Action.session action ≠ t →
      (s'.db.blocks.get? (arguments.reporterId,arguments.targetId)).isSome =
        (s.db.blocks.get? (arguments.reporterId,arguments.targetId)).isSome

/-- On the way to `s` session `t` committed its report and, with one on a user, the block. -/
def Filed (run : Request → App Response) (start s : Backend) (t : Nat) (arguments : Arguments) : Prop :=
  ∃ before i after report, Reach run Discipline.none start before ∧
    before.step run (.exec t i) = some after ∧ Reach run Discipline.none after s ∧
    after.db.reports.rows = before.db.reports.rows ++ [report] ∧
    report.reporterId = arguments.reporterId ∧ report.targetType = arguments.targetType ∧
    report.targetId = arguments.targetId ∧ (arguments.targetType = .user →
      (after.db.blocks.get? (arguments.reporterId,arguments.targetId)).isSome)

/-- A report that is refused for being there is there, and one that succeeds was committed. -/
structure ReportsKept (run : Request → App Response) (start s : Backend) : Prop where
  refused : ∀ t arguments, s.session t = some ⟨.report arguments,.inr (.error reportAlreadyExists)⟩ →
    Reported arguments s.db
  accepted : ∀ t arguments response, s.session t = some ⟨.report arguments,.inr (.ok response)⟩ →
    Filed run start s t arguments

/-- Where a report session stands. -/
inductive Reporting (run : Request → App Response) (start s : Backend) (t : Nat) (arguments : Arguments) :
    App Response ⊕ Except Exc Response → Prop where
  | prepared {known : Known} {p : App Response} (prepared : Prepared arguments known s.db p) :
    Reporting run start s t arguments (.inl p)
  | filed (filed : Filed run start s t arguments) : Reporting run start s t arguments (.inl (.ret .done))
  | refused (reported : Reported arguments s.db) :
    Reporting run start s t arguments (.inl (.raise reportAlreadyExists))
  | accepted {response : Response} (filed : Filed run start s t arguments) :
    Reporting run start s t arguments (.inr (.ok response))
  | failed {error : Exc} (reported : error = reportAlreadyExists → Reported arguments s.db) :
    Reporting run start s t arguments (.inr (.error error))

theorem Filed.later {run : Request → App Response} {start u : Backend} (filed : Filed run start s t arguments)
    (later : Reach run Discipline.none s u) : Filed run start u t arguments := by
  obtain ⟨a,i,b,report,before,taken,after,rest⟩ := filed
  exact ⟨a,i,b,report,before,taken,after.trans later,rest⟩

theorem Reachable.users_stay (reachable : Reachable settings sqrt users s)
    {action : Action Input Exc Request} {u : Backend}
    (taken : s.step (program settings sqrt) action = some u) {id : UUID}
    (there : (s.db.users.get? id).isSome) : (u.db.users.get? id).isSome := by
  rcases reachable.change taken with same | ⟨_,_,_,_,db,_,_,_,_,change,same⟩
  · rw [System.db,show u.store.world = _ from same]
    exact there
  · rw [System.db,show u.store.world = _ from same]
    rcases change.steady.users with kept | ⟨registry,_,kept,_,_,written⟩
    · change (db.users.get? id).isSome
      rw [kept]
      exact there
    · change (db.users.get? id).isSome
      rw [kept]
      exact written.known there

theorem Reachable.reported_stays (reachable : Reachable settings sqrt users s)
    {action : Action Input Exc Request} {u : Backend}
    (taken : s.step (program settings sqrt) action = some u) (reported : Reported arguments s.db) :
    Reported arguments u.db := by
  obtain ⟨report,member,same_⟩ := reported
  rcases reachable.change taken with same | ⟨_,_,_,_,db,_,_,_,_,change,same⟩
  · rw [System.db,show u.store.world = _ from same]
    exact ⟨report,member,same_⟩
  · rw [System.db,show u.store.world = _ from same]
    refine ⟨report,?_,same_⟩
    rcases change.reports with kept | ⟨_,_,_,kept⟩
    · exact kept ▸ member
    · exact kept ▸ List.mem_append_left _ member

theorem filing_of_files {known : Known} {report : Report} {p : App Response}
    (files : Files arguments known report p) (there : s.session t = some ⟨.report arguments,.inl p⟩) :
    Filing s t arguments report := by
  cases files with
  | user asked _ _ _ => exact .user asked there
  | photo asked => exact .photo asked there

/-- A statement before the commit keeps what the session relies on. -/
theorem ReportRepository.Prepared.exec {known : Known} {p : App Response} {i : Input} {store : Store Db RowKey Event}
    {state : App Response ⊕ Except Exc Response} {a : Backend} (prepared : Prepared arguments known a.db p)
    (ran : p.exec t i a.store = some (store,state)) (open_ : p.isCommit = false) {run start} :
    Reporting run start ⟨store,a.put t ⟨.report arguments,state⟩⟩ t arguments state := by
  obtain ⟨same,noted⟩ := prepared.notes.exec ran open_
  have same : System.db ⟨store,a.put t ⟨.report arguments,state⟩⟩ = a.db := same
  cases noted with
  | @read q notes =>
    refine .prepared ⟨notes,fun known => ?_,fun known => ?_,fun _ _ already read => ?_⟩
    · rw [same]
      exact (Bool.or_eq_true _ _ ▸ known).elim prepared.reporter id
    · rw [same]
      exact (Bool.or_eq_true _ _ ▸ known).elim prepared.target id
    · rw [same]
      exact Option.some.inj read
  | @other q notes =>
    refine .prepared ⟨notes,?_,?_,fun _ _ _ read => by cases read⟩
    · rw [same]
      exact prepared.reporter
    · rw [same]
      exact prepared.target
  | raised _ raises => exact .failed fun error => absurd error raises

/-- What another session does leaves it to the report session, where it leaves the block. -/
theorem ReportRepository.Prepared.others {known : Known} {p : App Response} {action : Action Input Exc Request}
    {u : Backend} (prepared : Prepared arguments known s.db p)
    (reachable : Reachable settings sqrt users s) (there : s.session t = some ⟨.report arguments,.inl p⟩)
    (other : Reach.Action.session action ≠ t) (taken : s.step (program settings sqrt) action = some u)
    (untouched : Untouched s action u) : Prepared arguments known u.db p where
  notes := prepared.notes
  reporter seen := reachable.users_stay taken (prepared.reporter seen)
  target seen := reachable.users_stay taken (prepared.target seen)
  blocked asked last already read := by
    have notes := prepared.notes
    cases p with
    | commit writes next =>
      obtain ⟨_,id,start,files⟩ := notes
      have filing := filing_of_files files there
      rw [untouched t arguments _ filing asked other]
      exact prepared.blocked asked last already read
    | _ => cases last

/-- In a run that leaves the blocks of reported users alone no report is lost. -/
theorem reportsKept (runs : Runs (program settings sqrt)
      (fun s action u => Regular s action ∧ Untouched s action u) (launch users) s) :
    ReportsKept (program settings sqrt) (launch users) s := by
  have reached : ∀ {a}, Runs (program settings sqrt)
      (fun s action u => Regular s action ∧ Untouched s action u) (launch users) a →
      Reachable settings sqrt users a := fun before =>
    Reach.of_runs before fun _ action _ _ => Reach.admits_none action
  have reporting : ∀ t arguments state, s.session t = some ⟨.report arguments,state⟩ →
      Reporting (program settings sqrt) (launch users) s t arguments state := by
    intro t arguments state present
    refine Reach.runs_session_rule (Q := fun s state =>
      Reporting (program settings sqrt) (launch users) s t arguments state)
      runs (fun _ => rfl) ?_ ?_ ?_ ?_ present
    · intro a before absent
      exact .prepared (prepared_create _)
    · intro a i p store state before there reporting ran taken holds
      have reach : Reach (program settings sqrt) Discipline.none (launch users) a := reached before
      cases reporting with
      | @prepared known _ prepared =>
        cases last : p.isCommit with
        | false => exact prepared.exec ran last
        | true =>
          have notes := prepared.notes
          cases p with
          | commit writes next =>
            obtain ⟨reporter,id,start,files⟩ := notes
            have unused := holds.1 arguments _ (filing_of_files files there)
            cases prepared.commits reporter files unused ran with
            | filed written blocked =>
              exact .filed ⟨a,i,_,_,reach,taken,.refl,written,rfl,rfl,rfl,blocked⟩
            | refused same reported => exact .refused (show Reported arguments store.world.db from same ▸ reported)
          | _ => cases last
      | filed filed =>
        cases Option.some.inj ran
        exact .accepted (filed.later (.step _ .refl taken (Reach.admits_none _)))
      | refused reported =>
        cases Option.some.inj ran
        exact .failed fun _ => reported
    · intro a b error p before _ reporting taken same holds
      exact .failed fun failed => absurd failed holds.1
    · intro a action b state before there other reporting taken holds
      have further : Reach (program settings sqrt) Discipline.none a b :=
        .step action .refl taken (Reach.admits_none action)
      cases reporting with
      | prepared prepared =>
        exact .prepared (prepared.others (reached before) there other taken holds.2)
      | filed filed => exact .filed (filed.later further)
      | refused reported => exact .refused ((reached before).reported_stays taken reported)
      | accepted filed => exact .accepted (filed.later further)
      | failed reported =>
        exact .failed fun failed => (reached before).reported_stays taken (reported failed)
  constructor
  · intro t arguments ended
    cases reporting t arguments _ ended with
    | failed reported => exact reported rfl
  · intro t arguments response ended
    cases reporting t arguments _ ended with
    | accepted filed => exact filed

end runs

namespace Sample
open ReportRepository

def complaint : Request := .report ⟨1,.user,2,"SPAM",none⟩

/-- A report that reads no block, and a block of the same user before it commits. -/
def overtaken : List (Action Input Exc Request) :=
  session 1 complaint 5 (input 1 400) ++ session 2 (.block 1 2) 4 (input 2 500) ++
    List.replicate 2 (.exec 1 (input 3 600))

def committing (s : Backend) (t : Nat) : Bool :=
  (s.session t).any fun session => match session.state with
    | .inl p => p.isCommit
    | .inr _ => false

/-- No report is there yet, or the session that acts is not about to commit. -/
def isRegular (s : Backend) : Action Input Exc Request → Bool
  | .start _ _ => true
  | .exec t _ => s.db.reports.rows.isEmpty || !committing s t
  | .die _ _ => false

theorem committing_of_filing {s : Backend} {t : Nat} {arguments : Arguments} {report : Report}
    (filing : Filing s t arguments report) : committing s t = true := by
  cases filing with
  | user _ there | photo _ there =>
    unfold committing
    rw [there]
    rfl

theorem regular_of_isRegular {s : Backend} {action : Action Input Exc Request}
    (passes : isRegular s action = true) : Regular s action := by
  cases action with
  | start => trivial
  | die => cases passes
  | exec t i =>
    intro arguments report filing
    have none_ : s.db.reports.rows = [] := by
      simpa [isRegular,committing_of_filing filing] using passes
    unfold Table.get?
    rw [none_]
    rfl

/-- The report session 1 was refused for one that is there already. -/
def turnedDown (s : Backend) : Option Arguments :=
  match s.session 1 with
  | some ⟨.report arguments,.inr (.error error)⟩ =>
    if error = reportAlreadyExists then some arguments else none
  | _ => none

theorem of_turnedDown {s : Backend} {arguments : Arguments} (refused : turnedDown s = some arguments) :
    s.session 1 = some ⟨.report arguments,.inr (.error reportAlreadyExists)⟩ := by
  unfold turnedDown at refused
  split at refused
  next ended =>
    split at refused
    next same =>
      cases refused
      rw [ended,same]
    next => cases refused
  next => cases refused

/-- Session 1 has nobody to disturb. -/
theorem untouched_alone {s : Backend}
    (runs : Runs (program settings Rat.sqrt)
      (fun s action _ => isRegular s action = true ∧ Reach.Action.session action = 1) (launch users) s) :
    Runs (program settings Rat.sqrt) (fun s action u => Regular s action ∧ Untouched s action u)
      (launch users) s := by
  refine Reach.runs_imp runs fun a action b before taken holds => ?_
  refine ⟨regular_of_isRegular holds.1,fun t arguments report filing _ other => ?_⟩
  have absent : a.session t = none :=
    Reach.runs_idle before fun _ action _ own same => other (holds.2.trans (own.2.symm.trans same))
  cases filing with
  | user _ there | photo _ there =>
    rw [absent] at there
    cases there

end Sample

theorem reportsKept_accepted : ∃ s, ReportsKept (program Sample.settings Rat.sqrt) (launch Sample.users) s ∧
    s.db.reports.rows.length = 1 ∧ (s.db.blocks.get? (1,2)).isSome := by
  obtain ⟨s,runs,filed⟩ := Sample.reachedWhile
    (fun s action _ => Sample.isRegular s action = true ∧ Reach.Action.session action = 1)
    (fun s action _ => Sample.isRegular s action && decide (Reach.Action.session action = 1))
    (fun s action u _ passes => by simpa using passes)
    (Sample.session 1 Sample.complaint 7 (Sample.input 1 400))
    (fun s => decide (s.db.reports.rows.length = 1 ∧ (s.db.blocks.get? (1,2)).isSome)) (by decide)
  exact ⟨s,reportsKept (Sample.untouched_alone runs),of_decide_eq_true filed⟩

/-- A block that commits in between makes the report fail for one that is not there. -/
theorem report_lost_to_block : ¬ ∀ (settings : Settings) (users : Table User.id) (s : Backend),
    Runs (program settings Rat.sqrt) (fun s action _ => Regular s action) (launch users) s →
      ReportsKept (program settings Rat.sqrt) (launch users) s := by
  intro kept
  obtain ⟨s,runs,lost⟩ := Sample.reachedWhile (fun s action _ => Regular s action)
    (fun s action _ => Sample.isRegular s action)
    (fun s action u _ passes => Sample.regular_of_isRegular passes) Sample.overtaken
    (fun s => decide (s.db.reports.rows = [] ∧ (Sample.turnedDown s).isSome)) (by decide)
  obtain ⟨none_,ended⟩ := of_decide_eq_true lost
  obtain ⟨arguments,refused⟩ := Option.isSome_iff_exists.mp ended
  obtain ⟨report,member,_⟩ := (kept _ _ s runs).refused 1 arguments (Sample.of_turnedDown refused)
  rw [none_] at member
  cases member

end Dalm
