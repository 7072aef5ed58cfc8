import Dalm.Keeping
import Dalm.Relational.Statements
import Dalm.UserRules

/-! Every program makes changes only. Each lemma walks down one program and shows, at
each of its commits and recorded reads, which change it is. -/
namespace Dalm
open Relational Held
variable {settings : Settings} {D : Discipline Db Input Event} {r : Request} {t : Nat}
  {w : BackendWorld} {α : Type} {Q : Except Exc α → Held Db RowKey → BackendWorld → Prop}

theorem Change.step {held : List RowKey} {db : Db} {events : List Event}
    (change : Change settings r t held w db events) :
    (protocol settings).step r t held w ((World.mk db w.log).record t events) :=
  ⟨db,events,change,rfl⟩

theorem Change.inv {held : List RowKey} {db : Db} {events : List Event}
    (change : Change settings r t held w db events) (inv : (protocol settings).inv w) :
    (protocol settings).inv ((World.mk db w.log).record t events) := change.keep inv

theorem later_preserves {F : BackendWorld → Prop} {H : Held Db RowKey} {w' : BackendWorld}
    (later : Later (protocol settings) D t H w w') (start : F w)
    (each : ∀ r u held a db events, u ≠ t → held.Disjoint (keys H) → Inv settings a →
      Change settings r u held a db events → F a → F ((World.mk db a.log).record u events)) :
    F w' := by
  refine later.preserves start ?_
  rintro a b ⟨u,r,held,different,apart,inv,⟨db,events,change,rfl⟩,_⟩ holds
  exact each r u held a db events different apart inv change holds

theorem later_onboarded {H : Held Db RowKey} {w' : BackendWorld} {user : UUID}
    (later : Later (protocol settings) D t H w w') (onboarded : Onboarded w.db.users user) :
    Onboarded w'.db.users user := by
  refine later_preserves (F := fun w => Onboarded w.db.users user) later onboarded ?_
  exact fun _ _ _ _ _ _ _ _ _ change before => change.onboarded before

/-- The photos a bulk statement took, as held rows. -/
abbrev heldPhotos (rows : List ((id : UUID) × Lockable.Row Db (RowKey.photo id))) :
    Held Db RowKey := taken rows

private theorem lockedRows_taken {cond : Photo → Bool} {rows : List ((_ : UUID) × Photo)}
    {H : Held Db RowKey} (holds : Holds (heldPhotos rows ++ H) w.db)
    (all : ∀ row ∈ rows, cond row.2 = true) :
    lockedRows (keys (heldPhotos rows ++ H)) w.db cond rows := by
  intro row member
  refine ⟨?_,?_,all row member⟩
  · rw [keys_append,List.mem_append]
    exact .inl (mem_keys_taken.mpr ⟨row,member,rfl⟩)
  · have inside := (holds_append _ _ _).mp holds
    exact inside.1 ⟨.photo row.1,row.2⟩ (List.mem_map.mpr ⟨row,List.mem_reverse.mpr member,rfl⟩)

namespace HomeRepository

theorem wp_expireStaleValidations {userId : UUID}
    {k : Bool → App α} (asked : r.report? = none)
    (rest : ∀ committed w', (protocol settings).inv w' →
      (∀ user, Onboarded w.db.users user → Onboarded w'.db.users user) →
        wp (protocol settings) D r t (k committed) Q [] w') :
    wp (protocol settings) D r t (expireStaleValidations userId >>= k) Q [] w := by
  apply wp_bind
  unfold expireStaleValidations
  apply wp_supply
  intro clock w₁ later₁ _
  apply wp_query
  intro w₂ later₂
  apply wp_lockEach later₂.inv later₂.holds
  intro rows w₃ later₃ holds _ all _
  split
  next none_ =>
    subst none_
    refine rest false w₃ later₃.inv fun user onboarded => ?_
    exact later_onboarded ((later₁.trans later₂).trans later₃.drop) onboarded
  next =>
    apply wp_commit
    · intro i w₄ _ _ failed
      cases failed
    · intro i w₄ db events later₄ _ written _
      cases written
      have change : Change settings r t _ w₄ _ _ :=
        .timedOut asked (lockedRows_taken later₄.holds all)
      refine ⟨change.step,rest true _ (change.inv later₄.inv) fun user onboarded => ?_⟩
      exact change.onboarded (later_onboarded
        (((later₁.trans later₂).trans later₃.drop).trans later₄.drop) onboarded)

theorem wp_getTodayPhoto {userId : UUID} {today : Date}
    {Q : Except Exc (Option Photo) → Held Db RowKey → BackendWorld → Prop}
    (asked : r.report? = none) (always : ∀ x H w, Q x H w) :
    wp (protocol settings) D r t (getTodayPhoto userId today) Q [] w := by
  unfold getTodayPhoto
  apply wp_expireStaleValidations asked
  intro _ w₁ inv _ w₂ later _
  exact ⟨.inl rfl,always _ _ _⟩

private theorem wp_atMostOne {ids : List UUID} {taken : Exc} {rest : App Photo} {H : Held Db RowKey}
    {Q : Except Exc Photo → Held Db RowKey → BackendWorld → Prop} (always : ∀ x H w, Q x H w)
    (goesOn : wp (protocol settings) D r t rest Q H w) :
    wp (protocol settings) D r t (atMostOne ids taken rest) Q H w := by
  unfold atMostOne
  split
  · exact goesOn
  · exact always _ _ _
  · exact always _ _ _

theorem wp_registerPhoto {arguments : PhotoArguments} {mock : Bool} {start : Time}
    {Q : Except Exc Photo → Held Db RowKey → BackendWorld → Prop}
    (asked : r = .createPhoto arguments mock) (onboarded : Onboarded w.db.users arguments.userId)
    (always : ∀ x H w, Q x H w) :
    wp (protocol settings) D r t (registerPhoto arguments mock start) Q [] w := by
  unfold registerPhoto
  apply wp_supply
  intro order w₁ later₁ _
  apply wp_query
  intro w₂ later₂
  apply wp_lockEach later₂.inv later₂.holds
  intro cleared w₃ later₃ _ _ _ _
  apply wp_query
  intro w₄ later₄
  apply wp_atMostOne always
  apply wp_supply
  intro clock w₅ later₅ _
  apply wp_commit
  · exact fun _ _ _ _ _ => always _ _ _
  · intro i w₆ db events later₆ _ written _
    have change : Change settings r t (keys (heldPhotos cleared ++ [])) w₆ db events := by
      have earlier := ((later₁.trans later₂).trans later₃.drop).trans later₄.drop
      refine .created asked
        (later_onboarded ((earlier.trans later₅.drop).trans later₆.drop) onboarded) ?_ written
      intro id member
      obtain ⟨row,inside,rfl⟩ := List.mem_map.mp member
      rw [List.append_nil]
      exact mem_keys_taken.mpr ⟨row,inside,rfl⟩
    refine ⟨change.step,?_⟩
    apply wp_query
    intro w₇ _
    split <;> exact always _ _ _

theorem wp_createPhoto {arguments : PhotoArguments} {mock : Bool}
    {Q : Except Exc Photo → Held Db RowKey → BackendWorld → Prop}
    (asked : r = .createPhoto arguments mock) (always : ∀ x H w, Q x H w) :
    wp (protocol settings) D r t (createPhoto arguments mock) Q [] w := by
  unfold createPhoto
  apply wp_supply
  intro clock w₁ _ _
  apply wp_query
  intro w₂ _
  split
  · exact always _ _ _
  next user found =>
    split
    · exact always _ _ _
    next finished =>
      have onboarded : Onboarded w₂.db.users arguments.userId := by
        refine ⟨user,(Option.filter_eq_some_iff.mp found).1,fun nameless => ?_⟩
        simp [User.onboardingRequired,nameless] at finished
      apply wp_expireStaleValidations (by rw [asked]; rfl)
      intro committed w₃ _ keeps
      apply wp_supply
      intro reopened w₄ later₄ _
      apply wp_query
      intro w₅ later₅
      exact wp_atMostOne always (wp_registerPhoto asked
        (later_onboarded (later₄.trans later₅) (keeps _ onboarded)) always)

theorem wp_deletePhoto {userId photoId : UUID}
    {Q : Except Exc Unit → Held Db RowKey → BackendWorld → Prop}
    (asked : r = .deletePhoto userId photoId) (always : ∀ x H w, Q x H w) :
    wp (protocol settings) D r t (deletePhoto userId photoId) Q [] w := by
  unfold deletePhoto
  apply wp_select
  · exact fun _ _ _ => always _ _ _
  · intro w₁ row _ _
    split
    · exact always _ _ _
    next photo kept =>
      obtain ⟨same,_⟩ := Option.filter_eq_some_iff.mp kept
      cases Option.some.inj same
      split
      · exact always _ _ _
      · split
        · exact always _ _ _
        next deletable =>
          apply wp_supply
          intro clock w₂ _ _
          apply wp_commit
          · intro i w₃ _ _ failed
            cases failed
          · intro i w₃ db events later₃ _ written _
            cases written
            have seen := ((holds_cons _ _ _).mp later₃.holds).1
            exact ⟨Change.step (.deleted asked (by simp) seen (by simpa using deletable)),always _ _ _⟩

theorem wp_canAccessPhoto {userId photoId : UUID} {H : Held Db RowKey}
    {Q : Except Exc Bool → Held Db RowKey → BackendWorld → Prop} (always : ∀ x H w, Q x H w) :
    wp (protocol settings) D r t (canAccessPhoto userId photoId) Q H w := by
  unfold canAccessPhoto
  apply wp_query
  intro w₁ _
  split
  · exact always _ _ _
  · apply wp_query
    intro w₂ _
    exact always _ _ _

theorem wp_getPhotoImage {userId photoId : UUID} {H : Held Db RowKey}
    {Q : Except Exc String → Held Db RowKey → BackendWorld → Prop} (always : ∀ x H w, Q x H w) :
    wp (protocol settings) D r t (getPhotoImage userId photoId) Q H w := by
  unfold getPhotoImage getPhoto
  apply wp_query
  intro w₁ _
  split
  · exact always _ _ _
  · split
    · exact always _ _ _
    · apply wp_bind
      apply wp_canAccessPhoto
      intro x H w
      cases x with
      | error error => exact always _ _ _
      | ok allowed =>
        dsimp only
        split <;> exact always _ _ _

end HomeRepository

private theorem Change.staysJudged {p : UUID} {held : List RowKey} {db : Db} {events : List Event}
    (change : Change settings r t held w db events)
    (before : ∃ photo, w.db.photos.get? p = some photo ∧ photo.status ≠ .validating) :
    ∃ photo, db.photos.get? p = some photo ∧ photo.status ≠ .validating := by
  obtain ⟨photo,found,judged⟩ := before
  obtain ⟨photo',after,_,follows⟩ := change.photo found
  refine ⟨photo',after,?_⟩
  rcases follows.status with same | moves
  · rwa [same]
  · intro validating
    rw [validating] at moves
    cases status : photo.status <;> simp [status,PhotoStatus.allowed] at moves

private theorem judged_of_unusable {id : UUID} {job : Job} (inv : Inv settings w)
    (found : w.db.job? .validation id = some job)
    (unusable : (w.db.photos.get? job.photoId).filter (fun photo =>
      photo.status = Queue.validation.usable ∧ photo.storageKey.isSome) = none) :
    ∃ photo, w.db.photos.get? job.photoId = some photo ∧ photo.status ≠ .validating := by
  obtain ⟨row,present,rfl⟩ := Option.map_eq_some_iff.mp found
  obtain ⟨photo,owner⟩ := Option.isSome_iff_exists.mp (inv.validations.photo id row present)
  refine ⟨photo,owner,fun validating => ?_⟩
  have stored := (inv.photos row.photoId photo owner).stored
  simp [owner,Option.filter,Queue.usable,validating,stored] at unusable

/-- claim_next of either queue: a hand-out, or an abandonment of a job without use. -/
theorem wp_claimNext {queue : Queue} {workerId : String}
    {Q : Except Exc (Option (Job × Photo)) → Held Db RowKey → BackendWorld → Prop}
    (asked : r = .claim queue workerId) (always : ∀ x H w, Q x H w) :
    wp (protocol settings) D r t (claimNext queue workerId settings.validationLeaseSeconds) Q [] w := by
  unfold claimNext
  apply wp_supply
  intro i w₁ _ _
  apply wp_query
  intro w₂ later₂
  apply wp_firstUnlocked later₂.inv later₂.holds
  · intro w₃ _
    exact always _ _ _
  · intro id job w₃ _ _ accepted _
    apply wp_query
    intro w₄ later₄
    have inside : RowKey.job queue id ∈ keys [(⟨.job queue id,job⟩ : (key : RowKey) × Lockable.Row Db key)] := by
      simp
    split
    next unusable =>
      apply wp_commit
      · intro j w₅ _ _ failed
        cases failed
      · intro j w₅ db events later₅ _ written _
        cases written
        have seen := ((holds_cons _ _ _).mp later₅.holds).1
        refine ⟨Change.step (.abandoned asked inside seen accepted ?_),always _ _ _⟩
        intro validation
        subst validation
        have there := ((holds_cons _ _ _).mp later₄.holds).1
        have judged := judged_of_unusable later₄.inv there unusable
        refine later_preserves (F := fun w => ∃ photo, w.db.photos.get? job.photoId = some photo ∧
          photo.status ≠ .validating) later₅ judged ?_
        exact fun _ _ _ _ _ _ _ _ _ change => change.staysJudged
    next photo usable =>
      apply wp_commit
      · intro j w₅ _ _ failed
        cases failed
      · intro j w₅ db events later₅ _ written _
        cases written
        have seen := ((holds_cons _ _ _).mp later₅.holds).1
        exact ⟨Change.step (.handed asked inside seen accepted),always _ _ _⟩

section validation
open PhotoValidationRepository
variable {Q : Except Exc Job → Held Db RowKey → BackendWorld → Prop}

/-- A verdict on a validating photo that the database would not take. -/
def VerdictRefused (settings : Settings) (D : Discipline Db Input Event) : Prop :=
  ∃ (w : BackendWorld) (ids : Input) (id : UUID) (result : Result) (photo : Photo) (start now : Time),
    Inv settings w ∧ D.input w ids ∧ w.db.photos.get? photo.id = some photo ∧
      photo.status = .validating ∧ resultWrites id result photo start now ids w.db = none

theorem wp_applyResult {jobId : UUID} {result : Result} (asked : r = .validationResult jobId result)
    (ends : ∀ x H w, (x = .error .integrityError → VerdictRefused settings D) → Q x H w) :
    wp (protocol settings) D r t (applyResult jobId result) Q [] w := by
  have answered : ∀ {x : Except Exc Job} {H : Held Db RowKey} {w : BackendWorld},
      x ≠ .error .integrityError → Q x H w :=
    fun other => ends _ _ _ fun same => absurd same other
  unfold applyResult
  apply wp_supply
  intro start w₁ _ _
  apply wp_select
  · exact fun _ _ _ => answered (by simp [jobNotFound])
  · intro w₂ job _ _
    dsimp only
    split
    · split
      · exact answered (by simp)
      · exact answered (by simp [alreadyCompleted])
    next pending =>
      split
      · exact answered (by simp [leaseLost])
      next lease =>
        apply wp_select
        · exact fun _ _ _ => answered (by simp)
        · intro w₃ photo _ _
          dsimp only
          split
          · exact answered (by simp [photoNotValidating])
          next validating =>
            have validating := not_not.mp validating
            apply wp_supply
            intro clock w₄ _ _
            apply wp_commit
            · intro ids w₅ later₅ input refused
              refine ends _ _ _ fun _ => ⟨w₅,ids,jobId,result,photo,start.now,clock.now,later₅.inv,input,?_⟩
              have owner := ((holds_cons _ _ _).mp later₅.holds).1
              exact ⟨(Table.key_of_get? owner).symm ▸ owner,validating,refused⟩
            · intro ids w₅ db events later₅ _ written _
              obtain ⟨owner,held⟩ := (holds_cons _ _ _).mp later₅.holds
              have seen := ((holds_cons _ _ _).mp held).1
              have owned : job.status = .pending ∨
                  (job.status = .processing ∧ job.workerId = result.workerId) := by
                by_cases status : job.status = .pending
                · exact .inl status
                · have processing : job.status = .processing := by
                    by_contra other
                    exact pending ⟨status,other⟩
                  exact .inr ⟨processing,not_not.mp fun other => lease ⟨processing,other⟩⟩
              exact ⟨Change.step (.judged asked (by simp) seen owned owner validating written),
                answered (by simp)⟩

theorem wp_recordFailure {jobId : UUID} {report : FailureReport}
    (asked : r = .validationFailure jobId report) (always : ∀ x H w, Q x H w) :
    wp (protocol settings) D r t (recordFailure jobId report settings.validationMaxAttempts
      settings.validationRetryBaseSeconds) Q [] w := by
  unfold recordFailure
  apply wp_supply
  intro start w₁ _ _
  apply wp_select
  · exact fun _ _ _ => always _ _ _
  · intro w₂ job _ _
    dsimp only
    split
    · exact always _ _ _
    split
    · exact always _ _ _
    split
    · exact always _ _ _
    next processing =>
      split
      · exact always _ _ _
      next lease =>
        have owned : holdsLease report.workerId job := ⟨not_not.mp processing,not_not.mp lease⟩
        apply wp_supply
        intro clock w₃ _ _
        split
        next again =>
          apply wp_commit
          · intro i w₄ _ _ failed
            cases failed
          · intro i w₄ db events later₄ _ written _
            cases written
            have seen := ((holds_cons _ _ _).mp later₄.holds).1
            exact ⟨Change.step (.retried (by rw [asked]; rfl) (by simp) seen owned again.2),always _ _ _⟩
        next =>
          apply wp_select
          · exact fun _ _ _ => always _ _ _
          · intro w₄ photo _ _
            apply wp_commit
            · exact fun _ _ _ _ _ => always _ _ _
            · intro ids w₅ db events later₅ _ written _
              obtain ⟨owner,held⟩ := (holds_cons _ _ _).mp later₅.holds
              have seen := ((holds_cons _ _ _).mp held).1
              exact ⟨Change.step (.validationFailed asked (by simp) seen owned owner written),
                always _ _ _⟩

end validation

section embedding
open PhotoEmbeddingJobRepository

/-- The job found is held, and it is completed or this worker's. -/
theorem wp_lockedJob {jobId : UUID} {workerId : String} {completedOk : Bool} {k : Job → App α}
    (failed : ∀ error H w', Later (protocol settings) D t [] w w' →
      (∀ job, w'.db.job? .embedding jobId = some job → job.status = .completed → completedOk = false) →
      Q (.error error) H w')
    (found : ∀ w' job, Later (protocol settings) D t [] w w' →
      w'.db.job? .embedding jobId = some job →
      (completedOk = true ∧ job.status = .completed) ∨ holdsLease workerId job →
      wp (protocol settings) D r t (k job) Q [⟨.job .embedding jobId,job⟩] w') :
    wp (protocol settings) D r t (lockedJob jobId workerId completedOk >>= k) Q [] w := by
  apply wp_bind
  unfold lockedJob
  apply wp_select
  · intro w' later missing
    refine failed _ _ _ later fun job present => ?_
    rw [show w'.db.job? .embedding jobId = none from missing] at present
    cases present
  · intro w' job later seen
    have same : ∀ {other}, w'.db.job? .embedding jobId = some other → other = job :=
      fun present => Option.some.inj (present.symm.trans seen)
    dsimp only
    split
    next completed =>
      split
      next ok => exact found w' job later seen (.inl ⟨ok,completed⟩)
      next refused => exact failed _ _ _ later fun _ _ _ => by simpa using refused
    next open_ =>
      split
      next => exact failed _ _ _ later fun other present completed => absurd (same present ▸ completed) open_
      next mine =>
        rw [not_or,not_not,not_not] at mine
        exact found w' job later seen (.inr mine)

theorem wp_recordEmbeddingFailure {jobId : UUID} {report : FailureReport}
    {Q : Except Exc Job → Held Db RowKey → BackendWorld → Prop}
    (asked : r = .embeddingFailure jobId report) (always : ∀ x H w, Q x H w) :
    wp (protocol settings) D r t (PhotoEmbeddingJobRepository.recordFailure jobId report
      settings.validationMaxAttempts settings.validationRetryBaseSeconds) Q [] w := by
  unfold PhotoEmbeddingJobRepository.recordFailure
  apply wp_lockedJob
  · exact fun _ _ _ _ _ => always _ _ _
  · intro w₁ job _ _ mine
    have owned : holdsLease report.workerId job := mine.resolve_left (by simp)
    apply wp_supply
    intro clock w₂ _ _
    split
    next again =>
      apply wp_commit
      · intro i w₃ _ _ failed
        cases failed
      · intro i w₃ db events later₃ _ written _
        cases written
        have seen := ((holds_cons _ _ _).mp later₃.holds).1
        exact ⟨Change.step (.retried (by rw [asked]; rfl) (by simp) seen owned again.2),always _ _ _⟩
    next =>
      apply wp_commit
      · intro i w₃ _ _ failed
        cases failed
      · intro i w₃ db events later₃ _ written _
        cases written
        have seen := ((holds_cons _ _ _).mp later₃.holds).1
        exact ⟨Change.step (.embeddingFailed asked (by simp) seen owned),always _ _ _⟩

end embedding

theorem nodup_arrange (order : List UUID) {ids : List UUID} (distinct : ids.Nodup) :
    (arrange order ids).Nodup := by
  unfold arrange
  split
  next perm => exact (List.isPerm_iff.mp perm).nodup_iff.mpr distinct
  next => exact distinct

theorem wp_expireDue {now : Time} {Q : Except Exc (List UUID) → Held Db RowKey → BackendWorld → Prop}
    (asked : r = .expireDue now) (always : ∀ x H w, Q x H w) :
    wp (protocol settings) D r t (SqlExpirationStore.expireDue now) Q [] w := by
  unfold SqlExpirationStore.expireDue
  apply wp_supply
  intro start w₁ _ _
  apply wp_query
  intro w₂ later₂
  apply wp_lockEach later₂.inv later₂.holds
  intro rows w₃ _ _ fewer all _
  have due : ((w₂.db.photos.rows.filter (SqlExpirationStore.isDue now)).map Photo.id).Nodup :=
    w₂.db.photos.distinct.sublist (List.filter_sublist.map Photo.id)
  have distinct := (nodup_arrange start.order due).sublist fewer
  apply wp_commit
  · exact fun _ _ _ _ _ => always _ _ _
  · intro ids w₄ db events later₄ _ written _
    exact ⟨Change.step (.expired asked (lockedRows_taken later₄.holds all) written distinct),always _ _ _⟩

section safety
open SafetyRepository ReportRepository
variable {Q : Except Exc Unit → Held Db RowKey → BackendWorld → Prop}

theorem wp_block {blockerId blockedId : UUID} (asked : r = .block blockerId blockedId)
    (always : ∀ x H w, Q x H w) :
    wp (protocol settings) D r t (block blockerId blockedId) Q [] w := by
  unfold block
  split
  · exact always _ _ _
  · apply wp_supply
    intro start w₁ _ _
    apply wp_query
    intro w₂ _
    split
    · exact always _ _ _
    · apply wp_commit
      · exact fun _ _ _ _ _ => always _ _ _
      · exact fun _ _ _ _ _ _ written _ => ⟨Change.step (.blocked asked written),always _ _ _⟩

theorem wp_unblock {blockerId blockedId : UUID} (asked : r = .unblock blockerId blockedId)
    (always : ∀ x H w, Q x H w) :
    wp (protocol settings) D r t (unblock blockerId blockedId) Q [] w := by
  unfold unblock
  apply wp_commit
  · exact fun _ _ _ _ _ => always _ _ _
  · intro i w₁ db events _ _ written _
    cases written
    exact ⟨Change.step (.unblocked asked),always _ _ _⟩

private theorem wp_flushReport {arguments : Arguments} {report : Report} {k : Unit → App Unit}
    {H : Held Db RowKey} (always : ∀ x H w, Q x H w)
    (rest : ∀ row w', Later (protocol settings) D t [] w w' → wp (protocol settings) D r t (k ()) Q
      (⟨.reportEntry arguments.reporterId arguments.targetType arguments.targetId,row⟩ :: H) w') :
    wp (protocol settings) D r t (flushReport arguments report >>= k) Q H w := by
  apply wp_bind
  unfold flushReport
  apply wp_select
  · intro w₁ _ missing
    cases missing
  · intro w₁ row later₁ _
    apply wp_query
    intro w₂ later₂
    split
    · exact rest row w₂ (later₁.drop.trans later₂.drop)
    · exact always _ _ _

private theorem participant_stays {k : UUID × UUID} {w' : BackendWorld}
    (later : Later (protocol settings) D t [] w w') (there : (w.db.participants.get? k).isSome) :
    (w'.db.participants.get? k).isSome := by
  refine later_preserves (F := fun w => (w.db.participants.get? k).isSome) later there ?_
  intro r u held a db events _ _ _ change present
  obtain ⟨row,found⟩ := Option.isSome_iff_exists.mp present
  obtain ⟨row',after,_⟩ := change.steady.participant k row found
  exact Option.isSome_iff_exists.mpr ⟨row',after⟩

theorem wp_createReport {arguments : Arguments} (asked : r = .report arguments)
    (always : ∀ x H w, Q x H w) :
    wp (protocol settings) D r t (ReportRepository.create arguments) Q [] w := by
  unfold ReportRepository.create
  split
  · unfold createForUser
    split
    · exact always _ _ _
    · apply wp_supply
      intro start w₁ _ _
      apply wp_query
      intro w₂ _
      split
      · exact always _ _ _
      · apply wp_flushReport always
        intro row w₃ _
        apply wp_query
        intro w₄ _
        apply wp_commit
        · exact fun _ _ _ _ _ => always _ _ _
        · exact fun _ _ _ _ _ _ written _ => ⟨Change.step (.reportedUser asked written),always _ _ _⟩
  · unfold createForPhoto
    apply wp_supply
    intro start w₁ _ _
    apply wp_query
    intro w₂ _
    split
    · exact always _ _ _
    · apply wp_flushReport always
      intro entry w₃ _
      apply wp_query
      intro w₄ _
      split
      · apply wp_commit
        · exact fun _ _ _ _ _ => always _ _ _
        · intro i w₅ db events _ _ written _
          exact ⟨Change.step (.reportedPhoto asked (by simp) written),always _ _ _⟩
      next own joined =>
        have there : (w₄.db.participants.get? (own.matchId,own.userId)).isSome := by
          rw [Table.get?_of_mem (List.mem_of_find?_eq_some joined)]
          rfl
        apply wp_supply
        intro clock w₅ later₅ _
        apply wp_select
        · intro w₆ later₆ missing
          have stays := participant_stays (later₅.drop.trans later₆.drop) there
          rw [show w₆.db.participants.get? (own.matchId,own.userId) = none from missing] at stays
          cases stays
        · intro w₆ row _ _
          apply wp_commit
          · exact fun _ _ _ _ _ => always _ _ _
          · intro i w₇ db events _ _ written _
            refine ⟨Change.step (.reportedPhoto asked ?_ written),always _ _ _⟩
            intro other member
            cases member
            exact List.mem_cons_self
  · exact always _ _ _

end safety

section accounts
variable {request : AccountRequest}

theorem permits_account :
    UserRepository.Permits (protocol settings) (.account request) t := by
  intro w registry events _ written
  obtain ⟨event,rfl⟩ := written.one
  exact Change.step (.account rfl written)

theorem wp_account {Q : Except Exc Response → Held Db RowKey → BackendWorld → Prop}
    (asked : r = .account request) (always : ∀ x H w, Q x H w) :
    wp (protocol settings) D r t (accountProgram request) Q [] w := by
  subst asked
  cases request with
  | login identity =>
    apply UserRepository.wp_getBy
    intro found w₁ _
    cases found with
    | none =>
      refine UserRepository.wp_createFrom (S := fun _ => True) permits_account (fun _ => trivial)
        (fun _ _ => always _ _ _) ?_
      exact fun _ _ _ _ => always _ _ _
    | some user => exact always _ _ _
  | completeOnboarding userId form =>
    apply wp_bind
    exact UserRepository.wp_completeOnboarding (S := fun _ => True) permits_account
      (fun _ => trivial) (fun _ _ => always _ _ _) fun _ _ _ _ => always _ _ _
  | updateProfile userId change =>
    apply wp_bind
    exact UserRepository.wp_updateProfile (S := fun _ => True) permits_account
      (fun _ => trivial) (fun _ _ => always _ _ _) fun _ _ _ _ => always _ _ _
  | withdraw userId =>
    refine UserRepository.wp_withdraw permits_account (fun _ _ => always _ _ _) ?_
    exact fun _ _ _ _ _ => always _ _ _

end accounts

end Dalm
