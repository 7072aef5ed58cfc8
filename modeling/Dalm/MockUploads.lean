import Dalm.Reachable
import Dalm.Fresh
import Dalm.Registration

/-! An upload that passes its validation at once leaves the database that the two transactions leave, the
upload that waits and the result that accepts it. -/
namespace Dalm
open Relational Txn HomeRepository

section checks
variable {α : Type}

/-- `scalar_one_or_none` where a row found is refused. -/
def single (ids : List UUID) (taken : Exc) : App Unit :=
  match ids with
  | [] => return ()
  | [_] => throw taken
  | _ => throw .multipleResultsFound

theorem atMostOne_eq (ids : List UUID) (taken : Exc) (rest : App Photo) :
    atMostOne ids taken rest = single ids taken >>= fun _ => rest := by
  match ids with
  | [] => rfl
  | [_] => rfl
  | _ :: _ :: _ => rfl

/-- What a registration checks and locks before it writes: the rows whose checksum it releases, and when
its transaction began. -/
def checked (arguments : PhotoArguments) : App (List UUID × Time) := do
  let clock ← supply
  let user ← query fun db => db.users.get? arguments.userId
  match user.filter (fun user => user.status = .active) with
  | none => throw accountNotActive
  | some user =>
    if user.onboardingRequired then
      throw onboardingRequired
    else
      let committed ← expireStaleValidations arguments.userId
      let reopened ← supply
      let actives ← query fun db =>
        (db.photos.rows.filter (isActiveOn arguments.userId arguments.registeredDate)).map Photo.id
      let _ ← single actives todayPhotoAlreadyExists
      let order ← supply
      let historical ← query fun db =>
        (db.photos.rows.filter (isHistorical arguments.userId arguments.checksum)).map Photo.id
      let cleared ← lockPhotos (isHistorical arguments.userId arguments.checksum)
        (arrange order.order historical)
      let duplicates ← query fun db =>
        (db.photos.rows.filter (isDuplicate arguments.userId arguments.checksum)).map Photo.id
      let _ ← single duplicates duplicatePhoto
      return (cleared.map Sigma.fst,if committed then reopened.now else clock.now)

/-- The rest of a registration. -/
def written (arguments : PhotoArguments) (mock : Bool) (cleared : List UUID) (start : Time) : App Photo := do
  let clock ← supply
  let _ ← commitOr photoConflict (createWrites arguments mock cleared start clock.now)
  let refreshed ← query fun db => db.photos.get? arguments.photoId
  match refreshed with
  | none => throw .noResultFound
  | some photo => return photo

theorem createPhoto_eq (arguments : PhotoArguments) (mock : Bool) : createPhoto arguments mock =
    checked arguments >>= fun found => written arguments mock found.1 found.2 := by
  refine congrArg Txn.input (funext fun clock => congrArg (Txn.read _) (funext fun db => ?_))
  -- The statements follow each other as they do in one program.
  change (match (db.users.get? arguments.userId).filter (fun user => user.status = .active) with
    | none => _
    | some user => _) = Txn.bind (match (db.users.get? arguments.userId).filter fun user => user.status = .active with
    | none => _
    | some user => _) _
  cases (db.users.get? arguments.userId).filter fun user => user.status = .active with
  | none => rfl
  | some user =>
    dsimp only
    split
    · rfl
    · simp only [registerPhoto,atMostOne_eq]
      refine Eq.trans (congrArg (Txn.bind (expireStaleValidations arguments.userId)) (funext fun committed => ?_))
        (Txn.bind_assoc (expireStaleValidations arguments.userId) _ _).symm
      refine congrArg Txn.input (funext fun reopened => congrArg (Txn.read _) (funext fun db => ?_))
      refine Eq.trans (congrArg (Txn.bind (single _ todayPhotoAlreadyExists)) (funext fun _ => ?_))
        (Txn.bind_assoc (single _ todayPhotoAlreadyExists) _ _).symm
      refine congrArg Txn.input (funext fun order => congrArg (Txn.read _) (funext fun db => ?_))
      refine Eq.trans (congrArg (Txn.bind (lockPhotos _ _)) (funext fun cleared => ?_))
        (Txn.bind_assoc (lockPhotos _ _) _ _).symm
      refine congrArg (Txn.read _) (funext fun db => ?_)
      exact (Txn.bind_assoc (single ((db.photos.rows.filter
        (isDuplicate arguments.userId arguments.checksum)).map Photo.id) duplicatePhoto)
        (fun _ => pure (cleared.map Sigma.fst,if committed then reopened.now else clock.now))
        fun found => written arguments mock found.1 found.2).symm

end checks

section uploads
variable {settings : Settings} {t : Nat} {i : Input} {w w' : BackendWorld} {arguments : PhotoArguments}
  {cleared : List UUID} {start : Time} {n m : Nat}

theorem alone_single {ids : List UUID} {taken : Exc} (w : BackendWorld) (n : Nat) :
    (∃ error, alone t (fun _ => i) (single ids taken) n w = ⟨.error error,n,w⟩) ∨
      alone t (fun _ => i) (single ids taken) n w = ⟨.ok (),n,w⟩ := by
  match ids with
  | [] => exact .inr rfl
  | [_] => exact .inl ⟨taken,rfl⟩
  | _ :: _ :: _ => exact .inl ⟨.multipleResultsFound,rfl⟩

/-- A registration that passes its checks has timed out the user's stale validations, and no more. -/
theorem alone_checked {found : List UUID × Time}
    (passed : alone t (fun _ => i) (checked arguments) n w = ⟨.ok found,m,w'⟩) :
    (w.db.users.get? arguments.userId).isSome ∧ found.2 = i.now ∧
      w'.db = timedOut arguments.userId i.now w.db := by
  rw [checked,alone_supply,alone_query] at passed
  split at passed
  next => cases passed
  next user chosen =>
    obtain ⟨known,_⟩ := Option.filter_eq_some_iff.mp chosen
    split at passed
    next => cases passed
    next =>
      obtain ⟨committed,k,log,_,expired⟩ :=
        alone_expireStaleValidations t (fun _ => i) arguments.userId (n + 1 + 1) w
      rw [alone_bind,expired] at passed
      simp only [andThen] at passed
      rw [alone_supply,alone_query,alone_bind] at passed
      rcases alone_single (t := t) (i := i) ⟨timedOut arguments.userId i.now w.db,log⟩ (k + 1 + 1)
        with ⟨error,refused⟩ | free
      · rw [refused] at passed
        cases passed
      · rw [free] at passed
        simp only [andThen] at passed
        rw [alone_supply,alone_query,alone_lockEach,alone_query,alone_bind] at passed
        rcases alone_single (t := t) (i := i) ⟨timedOut arguments.userId i.now w.db,log⟩ _
          with ⟨error,refused⟩ | free
        · rw [refused] at passed
          cases passed
        · rw [free] at passed
          cases passed
          refine ⟨by rw [known]; rfl,?_,rfl⟩
          cases committed <;> rfl

theorem once_createPhoto (arguments : PhotoArguments) (mock : Bool) (w : BackendWorld) :
    once t i (createPhoto arguments mock) w = match once t i (checked arguments) w with
      | (.error error,w') => (.error error,w')
      | (.ok found,w') => match createWrites arguments mock found.1 found.2 i.now i w'.db with
        | none => (.error photoConflict,w')
        | some (db,events) => (.ok (newPhoto arguments mock i.now),(World.mk db w'.log).record t events) := by
  rw [createPhoto_eq,once_bind]
  obtain ⟨result,w'⟩ := once t i (checked arguments) w
  cases result with
  | error error => rfl
  | ok found =>
    dsimp only
    rw [once,written,alone_supply,alone_commitOr]
    cases made : createWrites arguments mock found.1 found.2 i.now i w'.db with
    | none => rfl
    | some result =>
      obtain ⟨db,events⟩ := result
      dsimp only
      rw [alone_query,World.db_record,refreshed made]
      rfl

/-- The result that the mock validation stands for. -/
def passedAtOnce : PhotoValidationRepository.Result :=
  ⟨.passed,none,none,"dalm-mock-validator","1",0,none⟩

/-- What a registration that may write needs of the database. -/
theorem createWrites_iff {now : Time} (inv : Inv settings w) {db : Db} {stale : Time}
    (expired : db = timedOut arguments.userId stale w.db) (known : (w.db.users.get? arguments.userId).isSome)
    (fresh : i.Fresh w.db) (mock : Bool) :
    createWrites arguments mock cleared start now i db ≠ none ↔ db.photos.get? arguments.photoId = none ∧
      ∀ photo ∈ (released db cleared).photos.rows, Db.photosCompatible (newPhoto arguments false now) photo := by
  have same : ∀ photo, Db.photosCompatible (newPhoto arguments mock now) photo =
      Db.photosCompatible (newPhoto arguments false now) photo := by
    intro photo
    cases mock <;> rfl
  have photos : ∀ p, (db.photos.get? p).isSome = (w.db.photos.get? p).isSome := by
    intro p
    rw [expired]
    exact Table.isSome_get?_modify p
  constructor
  · intro some_
    obtain ⟨⟨db',events⟩,made⟩ := Option.ne_none_iff_exists'.mp some_
    refine ⟨?_,fun photo member => same photo ▸ createWrites_compatible made photo member⟩
    obtain ⟨absent,_⟩ := createWrites_photos made
    have kept : ((released db cleared).photos.get? arguments.photoId).isSome =
        (db.photos.get? arguments.photoId).isSome := by
      unfold released Db.updatePhotos
      rw [Table.get?_modify]
      split <;> simp
    have absent : (released db cleared).photos.get? arguments.photoId = none := absent
    rw [absent] at kept
    exact Option.not_isSome_iff_eq_none.mp (by rw [← kept]; simp)
  · rintro ⟨unused,compatible⟩
    have unused' : ¬ (w.db.photos.get? arguments.photoId).isSome := by
      rw [← photos,unused]
      simp
    refine createWrites_of_fresh (by rw [expired]; exact known) unused
      (fun photo member => same photo ▸ compatible photo member) ?_ ?_ ?_
    · intro row member owner
      rw [expired] at member
      exact unused' (owner ▸ inv.validations.photo row.id row (Table.get?_of_mem member))
    · intro job member owner
      rw [expired] at member
      obtain ⟨v,row,found,of_⟩ := inv.embeddings.validated job.id job (Table.get?_of_mem member)
      exact unused' (owner ▸ of_ ▸ inv.validations.photo v row found)
    · rw [expired]
      exact ⟨fresh.distinct,fresh.validations,fresh.embeddingJobs,fresh.matches_,fresh.reports,
        fresh.notifications,fresh.postcards⟩

open PhotoValidationRepository

/-- The job a result leaves. -/
def resolved (result : Result) (now : Time) (job : Job) : Job :=
  {job with
    status := result.status.status
    completedAt := some now
    workerId := none
    errorCode := none
    errorMessage := none
    nextAttemptAt := none}

/-- A result for an open job of its worker, about a photo that waits, comes to its commit. -/
theorem alone_applyResult {jobId : UUID} {result : Result} {job : Job} {photo : Photo} (inputs : Nat → Input)
    (found : w.db.job? .validation jobId = some job)
    (open_ : job.status = .pending ∨ (job.status = .processing ∧ job.workerId = result.workerId))
    (owner : w.db.photos.get? job.photoId = some photo) (validating : photo.status = .validating) :
    alone t inputs (applyResult jobId result) n w =
      match resultWrites jobId result photo (inputs n).now (inputs (n + 3)).now (inputs (n + 4)) w.db with
      | none => ⟨.error .integrityError,n + 5,w⟩
      | some (db,events) => ⟨.ok (resolved result (inputs (n + 3)).now job),n + 5,
          (World.mk db w.log).record t events⟩ := by
  have held : Lockable.view (RowKey.job .validation jobId) w.db = some job := found
  have held' : Lockable.view (RowKey.photo job.photoId) w.db = some photo := owner
  rw [applyResult,alone_supply,alone_selectForUpdate,held]
  dsimp only
  rw [if_neg (by rcases open_ with pending | processing <;> simp [*]),
    if_neg (by rcases open_ with pending | processing <;> simp [*]),alone_selectForUpdate,held']
  dsimp only
  rw [if_neg (not_not.mpr validating),alone_supply,alone_commitOr]
  cases resultWrites jobId result photo (inputs n).now (inputs (n + 3)).now (inputs (n + 4)) w.db <;> rfl

/-- What the accepting result writes after an upload that waits. -/
theorem resultWrites_waiting {i' : Input} {db plain mocked : Db} {events events' : List Event}
    (now : i'.now = i.now) (drawn : i'.uuid 0 = i.uuid 1 ∧ i'.uuid 1 = i.uuid 2)
    (waiting : createWrites arguments false cleared i.now i.now i db = some (plain,events))
    (passed : createWrites arguments true cleared i.now i.now i db = some (mocked,events')) :
    ∃ db' events, resultWrites (i.uuid 0) passedAtOnce (newPhoto arguments false i.now) i'.now i'.now i' plain =
        some (db',events) ∧
      mocked = db'.updateJob .validation (i.uuid 0) fun job => {job with attemptCount := 1} := by
  obtain ⟨_,_,freshPhoto,freshValidation,rfl⟩ := createWrites_plain waiting
  obtain ⟨owned,_,others,freshPhoto',freshValidation',freshJob,freshNotice,rfl⟩ := createWrites_mock passed
  generalize same : ({released db cleared with
    photos := (released db cleared).photos.insert (newPhoto arguments false i.now) freshPhoto
    validations := db.validations.insert
      (newValidation (i.uuid 0) arguments.photoId i.now) freshValidation} : Db) = plain
  let updated := (plain.updateValidation (i.uuid 0) (complete passedAtOnce i'.now)).updatePhoto
    arguments.photoId (accept (newPhoto arguments false i.now))
  have there : (updated.photos.get? arguments.photoId).isSome := by
    have owner : plain.photos.get? arguments.photoId = some (newPhoto arguments false i.now) := by
      rw [← same]
      exact Table.get?_insert_self freshPhoto
    simp [updated,Db.updateValidation,owner]
  have unqueued : updated.embeddingJobs.get? (i'.uuid 0) = none := by
    rw [drawn.1]
    subst same
    exact freshJob
  have unnoticed : updated.notifications.get? (i'.uuid 1) = none := by
    rw [drawn.2]
    subst same
    exact freshNotice
  let queued : Db := {updated with
    embeddingJobs := updated.embeddingJobs.insert
      (newEmbeddingJob (i'.uuid 0) arguments.photoId i'.now) unqueued}
  have inserted : updated.insertEmbeddingJob (newEmbeddingJob (i'.uuid 0) arguments.photoId i'.now) =
      some queued := by
    refine Db.insertEmbeddingJob_eq_some.mpr ⟨⟨there,?_⟩,unqueued,rfl⟩
    subst same
    exact List.all_eq_true.mpr fun other member => decide_eq_true (others other member)
  let notice := notification (i'.uuid 1) arguments.userId .validationPassed arguments.photoId i'.now
  have notified : queued.insertNotification notice =
      some {queued with notifications := queued.notifications.insert notice unnoticed} := by
    refine Db.insertNotification_eq_some.mpr ⟨?_,unnoticed,rfl⟩
    subst same
    exact owned
  have writes : passWrites (newPhoto arguments false i.now) i'.now i'
      (plain.updateValidation (i.uuid 0) (complete passedAtOnce i'.now)) = some _ :=
    Option.bind_eq_some_iff.mpr ⟨queued,inserted,notified⟩
  refine ⟨_,_,Option.bind_eq_some_iff.mpr ⟨_,writes,rfl⟩,?_⟩
  -- Each table is the one of the upload that passed at once.
  subst same
  simp only [Db.updateJob,Db.updateValidation,Db.updatePhoto,Db.updatePhotos,Db.mk.injEq,updated,queued,true_and,and_true]
  refine ⟨?_,?_,?_,?_⟩
  · refine Eq.trans ?_ (Table.modify_insert freshPhoto).symm
    exact Table.ext rfl
  · rw [now]
    refine Eq.trans ?_ (congrArg (fun t => Table.modify t _ _ _) (Table.modify_insert freshValidation).symm)
    refine Eq.trans ?_ (Table.modify_insert _).symm
    exact Table.ext rfl
  · exact Table.ext (by rw [Table.rows_insert,Table.rows_insert,drawn.1,now]; rfl)
  · exact Table.ext (by simp only [Table.rows_insert,notice,drawn.2,now]; rfl)

/-- The accepting result answers. -/
theorem once_passedAtOnce {i' : Input} {db plain db' : Db} {events events' : List Event} (t : Nat)
    (log : List (Nat × Event)) (waits : createWrites arguments false cleared i.now i.now i db = some (plain,events))
    (writes : resultWrites (i.uuid 0) passedAtOnce (newPhoto arguments false i.now) i'.now i'.now i' plain =
      some (db',events')) : ∃ job, once t i' (applyResult (i.uuid 0) passedAtOnce)
        ((World.mk plain log).record t events) =
          (.ok job,(World.mk db' ((World.mk plain log).record t events).log).record t events') := by
  let uploaded := (World.mk plain log).record t events
  have same : uploaded.db = plain := World.db_record _ _ _
  have owner : uploaded.db.photos.get? arguments.photoId = some (newPhoto arguments false i.now) := by
    rw [same]
    exact refreshed waits
  have queued : uploaded.db.job? .validation (i.uuid 0) =
      some (newValidation (i.uuid 0) arguments.photoId i.now).toJob := by
    rw [same]
    obtain ⟨_,_,_,freshValidation,rfl⟩ := createWrites_plain waits
    exact congrArg (Option.map PhotoValidation.toJob) (Table.get?_insert_self freshValidation)
  refine ⟨resolved passedAtOnce i'.now (newValidation (i.uuid 0) arguments.photoId i.now).toJob,?_⟩
  rw [once,alone_applyResult (fun _ => i') queued (.inl rfl) owner rfl,same,writes]

/-- An upload that passes at once against one that waits, and against the result that accepts it. -/
structure PassesAtOnce (arguments : PhotoArguments) (t : Nat) (i i' : Input)
    (mock waiting : Except Exc Photo × BackendWorld) : Prop where
  refused : ∀ error, mock.1 = .error error → waiting = (.error error,mock.2)
  accepted : ∀ photo, mock.1 = .ok photo → mock.2.db.photos.get? arguments.photoId = some photo ∧
    (∃ waits, waiting.1 = .ok waits) ∧ ∃ job w',
      once t i' (applyResult (i.uuid 0) passedAtOnce) waiting.2 = (.ok job,w') ∧
        mock.2.db = w'.db.updateJob .validation (i.uuid 0) fun job => {job with attemptCount := 1}

theorem passesAtOnce {i' : Input} (inv : Inv settings w) (fresh : i.Fresh w.db) (now : i'.now = i.now)
    (drawn : i'.uuid 0 = i.uuid 1 ∧ i'.uuid 1 = i.uuid 2) :
    PassesAtOnce arguments t i i' (once t i (createPhoto arguments true) w)
      (once t i (createPhoto arguments false) w) := by
  rw [once_createPhoto,once_createPhoto]
  cases ran : alone t (fun _ => i) (checked arguments) 0 w with
  | mk result m w' =>
    have checks : once t i (checked arguments) w = (result,w') := by
      rw [once,ran]
    rw [checks]
    cases result with
    | error error =>
      refine ⟨fun other same => ?_,fun photo answered => ?_⟩
      · cases same
        rfl
      · cases answered
    | ok found =>
      obtain ⟨cleared,start⟩ := found
      obtain ⟨known,rfl,expired⟩ := alone_checked ran
      have able (mock : Bool) : createWrites arguments mock cleared i.now i.now i w'.db ≠ none ↔ _ :=
        createWrites_iff inv expired known fresh mock
      dsimp only
      cases passed : createWrites arguments true cleared i.now i.now i w'.db with
      | none =>
        have conflict : createWrites arguments false cleared i.now i.now i w'.db = none := by
          by_contra written
          exact (able true).mpr ((able false).mp written) passed
        rw [conflict]
        refine ⟨fun other same => ?_,fun photo answered => ?_⟩
        · cases same
          rfl
        · cases answered
      | some made =>
        obtain ⟨mocked,events'⟩ := made
        have wrote : createWrites arguments true cleared i.now i.now i w'.db ≠ none := by
          rw [passed]
          exact Option.some_ne_none _
        obtain ⟨⟨plain,events⟩,waits⟩ :=
          Option.ne_none_iff_exists'.mp ((able false).mpr ((able true).mp wrote))
        rw [waits]
        refine ⟨fun other same => ?_,fun photo answered => ?_⟩
        · cases same
        · cases answered
          obtain ⟨db',events',writes,same⟩ := resultWrites_waiting now drawn waits passed
          refine ⟨?_,⟨_,rfl⟩,?_⟩
          · rw [World.db_record]
            exact refreshed passed
          · obtain ⟨job,resulted⟩ := once_passedAtOnce t w'.log waits writes
            refine ⟨job,_,resulted,?_⟩
            simp only [World.db_record]
            exact same

/-- A mock upload refuses what a plain upload refuses, and leaves what a plain upload and the result
that accepts it at that instant leave, up to the attempt it counts. -/
theorem mockUploads {K : Type} [Field K] [LinearOrder K] [IsStrictOrderedRing K] [FloorRing K]
    {sqrt : ℚ → K} {users : Table User.id} {s : Backend} {i' : Input}
    (reachable : Reachable settings sqrt users s) (fresh : i.Fresh s.world.db) (now : i'.now = i.now)
    (drawn : i'.uuid 0 = i.uuid 1 ∧ i'.uuid 1 = i.uuid 2) (arguments : PhotoArguments) (t : Nat) :
    PassesAtOnce arguments t i i' (once t i (createPhoto arguments true) s.world)
      (once t i (createPhoto arguments false) s.world) :=
  passesAtOnce reachable.inv fresh now drawn

theorem mockUploads_second : ∃ s : Backend, ((once 2 (Sample.input 1000 200)
      (createPhoto ⟨12,2,"","second","second",0⟩ true) s.world).1.toOption).isSome ∧
    PassesAtOnce ⟨12,2,"","second","second",0⟩ 2 (Sample.input 1000 200) (Sample.input 1000 201)
      (once 2 (Sample.input 1000 200) (createPhoto ⟨12,2,"","second","second",0⟩ true) s.world)
      (once 2 (Sample.input 1000 200) (createPhoto ⟨12,2,"","second","second",0⟩ false) s.world) := by
  obtain ⟨s,_,reachable,test⟩ := Sample.reached Sample.uploaded (fun s =>
    decide ((Sample.input 1000 200).Fresh s.world.db) && ((once 2 (Sample.input 1000 200)
      (createPhoto ⟨12,2,"","second","second",0⟩ true) s.world).1.toOption).isSome) (by decide +kernel)
  obtain ⟨fresh,accepted⟩ := Bool.and_eq_true_iff.mp test
  have now : (Sample.input 1000 201).now = (Sample.input 1000 200).now := rfl
  exact ⟨s,accepted,mockUploads reachable (of_decide_eq_true fresh) now ⟨rfl,rfl⟩ _ 2⟩

end uploads
end Dalm
