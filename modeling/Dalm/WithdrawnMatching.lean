import Dalm.MatchIntegrity
import Dalm.RepeatableDeliveries

/-! Users who have withdrawn are out of matching, where no photo of theirs is searching when
they go or comes to search after it. -/
namespace Dalm
open Relational

def Db.gone (db : Db) (userId : UUID) : Prop :=
  ∃ row, db.users.get? userId = some row ∧ row.status = .withdrawn

/-- No user who has withdrawn has a photo that is searched for. -/
def Cleared (db : Db) : Prop :=
  ∀ p photo, db.photos.get? p = some photo → photo.status = .searching → ¬ db.gone photo.userId

/-- A withdrawal while a photo of the user is searching, or a photo that comes to search
when its owner has withdrawn. -/
def Event.strands (before after : Db) : Event → Prop
  | .account (.withdrawn loaded) => ∃ p photo, before.photos.get? p = some photo ∧
      photo.userId = loaded.id ∧ photo.status = .searching
  | .photoPassed p _ => ∃ photo, before.photos.get? p = some photo ∧ before.gone photo.userId
  | .photoCreated p _ (some _) => ∃ photo, after.photos.get? p = some photo ∧
      before.gone photo.userId
  | _ => False

/-- The step strands no photo. -/
def Clean (s : Backend) (_ : Action Input Exc Request) (u : Backend) : Prop :=
  ∀ new, u.world.log = s.world.log ++ new → ∀ t event, (t,event) ∈ new → ¬ event.strands s.db u.db

/-- No search finds a photo of a user who has withdrawn, and no match made from now on has
one of them. -/
structure OutOfMatching (run : Request → App Response) (s : Backend) : Prop where
  listed : ∀ sourcePhotoId sourceUserId now limit,
    ∀ row ∈ SqlPhotoEmbeddingStore.buildCandidateQuery sourcePhotoId sourceUserId now limit s.db,
      ¬ s.db.gone row.1.userId
  matched : ∀ u, Runs run Clean s u → ∀ matchId userId, s.db.gone userId →
    s.db.participants.get? (matchId,userId) = none → u.db.participants.get? (matchId,userId) = none

section changes
variable {settings : Settings} {r : Request} {t : Nat} {held : List RowKey} {w : BackendWorld}
  {db : Db} {events : List Event}

theorem Change.gone {userId : UUID} (change : Change settings r t held w db events)
    (gone : w.db.gone userId) : db.gone userId := by
  obtain ⟨row,there,withdrawn⟩ := gone
  rcases change.steady.users with same | ⟨registry,event,same,_,_,written⟩
  · exact ⟨row,same ▸ there,withdrawn⟩
  · obtain ⟨row',found,still⟩ := written.withdrawn_stays there withdrawn
    exact ⟨row',same ▸ found,still⟩

/-- Who has withdrawn had, or does by this change. -/
theorem Change.leaves {userId : UUID} (change : Change settings r t held w db events)
    (gone : db.gone userId) : w.db.gone userId ∨ db.photos = w.db.photos ∧
      ∃ loaded, loaded.id = userId ∧ .account (.withdrawn loaded) ∈ events := by
  obtain ⟨row',found,withdrawn⟩ := gone
  rcases change.steady.users with same | ⟨registry,event,same,photos,rfl,written⟩
  · exact .inl ⟨row',same ▸ found,withdrawn⟩
  · rw [same] at found
    have key : row'.id = userId := Table.key_of_get? found
    rcases written.row found with ⟨_,identity,rfl⟩ | ⟨row,there,rfl | ⟨other,told,rewrites⟩⟩
    · cases identity <;> cases withdrawn
    · exact .inl ⟨row',there,withdrawn⟩
    · cases told
      cases rewrites with
      | onboarded => exact .inl ⟨row,there,withdrawn⟩
      | profileUpdated => exact .inl ⟨row,there,withdrawn⟩
      | withdrawn own => exact .inr ⟨photos,_,own.trans key,List.mem_cons_self⟩

private theorem searched_modify {photos : Photos} {chosen : UUID → Bool} {assign : Photo → Photo}
    {p : UUID} {photo : Photo}
    (keeps : ∀ row, (assign row).id = row.id) (found : (photos.modify chosen assign keeps).get? p = some photo)
    (searching : photo.status = .searching) (each : ∀ row, (assign row).status = .searching →
      row.status = .searching ∧ (assign row).userId = row.userId) :
    ∃ old, photos.get? p = some old ∧ old.status = .searching ∧ old.userId = photo.userId := by
  obtain ⟨old,there,rfl⟩ := Table.get?_modify_eq_some.mp found
  refine ⟨old,there,?_⟩
  split at searching
  next picked =>
    obtain ⟨status,same⟩ := each old searching
    rw [if_pos picked]
    exact ⟨status,same.symm⟩
  next other =>
    rw [if_neg other]
    exact ⟨searching,rfl⟩

/-- A photo that is searched for was, or has just passed, or is new. -/
theorem Change.searched {p : UUID} {photo : Photo} (change : Change settings r t held w db events)
    (found : db.photos.get? p = some photo) (searching : photo.status = .searching) :
    (∃ old, w.db.photos.get? p = some old ∧ old.status = .searching ∧ old.userId = photo.userId) ∨
      (∃ old job, w.db.photos.get? p = some old ∧ old.userId = photo.userId ∧
        .photoPassed p job ∈ events) ∨
      ∃ validation job, .photoCreated p validation (some job) ∈ events := by
  cases change with
  | observed | unblocked | postcardRead | account => exact .inl ⟨photo,found,searching,rfl⟩
  | @postcardDeleted _ _ _ side => cases side <;> exact .inl ⟨photo,found,searching,rfl⟩
  | abandoned | handed | retried | embeddingFailed =>
    exact .inl ⟨photo,by simpa using found,searching,rfl⟩
  | @created arguments mock cleared _ _ _ _ _ asked onboarded locked written =>
    cases mock with
    | false =>
      obtain ⟨_,_,fresh,_,rfl⟩ := HomeRepository.createWrites_plain written
      rcases Table.get?_insert_cases fresh found with ⟨_,rfl⟩ | before
      · cases searching
      · refine .inl (searched_modify ?_ before searching fun _ status => ⟨status,rfl⟩)
        exact fun _ => rfl
    | true =>
      obtain ⟨_,rfl,_,fresh,_,_,_,rfl⟩ := HomeRepository.createWrites_mock written
      rcases Table.get?_insert_cases fresh found with ⟨own,rfl⟩ | before
      · have same : arguments.photoId = p := own
        subst same
        exact .inr (.inr ⟨_,_,List.mem_cons_self⟩)
      · refine .inl (searched_modify ?_ before searching fun _ status => ⟨status,rfl⟩)
        exact fun _ => rfl
  | timedOut | deleted => exact .inl (searched_modify _ found searching fun _ status => by cases status)
  | @judged _ result job judgedPhoto _ _ _ _ _ asked locked present owned owner accepted written =>
    cases verdict : result.status with
    | passed =>
      obtain ⟨rfl,_,_,_,rfl⟩ := PhotoValidationRepository.resultWrites_passed verdict written
      obtain ⟨old,there,same⟩ := Table.get?_modify_eq_some.mp found
      split at same
      next picked =>
        have own := of_decide_eq_true picked
        subst own
        exact .inr (.inl ⟨old,_,there,by rw [same]; rfl,List.mem_cons_of_mem _ List.mem_cons_self⟩)
      next => exact .inl ⟨old,there,same ▸ searching,by rw [same]⟩
    | rejected =>
      obtain ⟨_,_,rfl⟩ := PhotoValidationRepository.resultWrites_rejected verdict written
      exact .inl (searched_modify _ found searching fun _ status => by cases status)
  | @validationFailed _ _ _ failedPhoto _ _ _ _ _ asked locked present owned owner written =>
    by_cases validating : failedPhoto.status = .validating
    · obtain ⟨_,_,rfl⟩ := PhotoValidationRepository.failureWrites_validating validating written
      exact .inl (searched_modify _ found searching
        fun _ status => by cases status)
    · obtain ⟨_,rfl⟩ := PhotoValidationRepository.failureWrites_other validating written
      exact .inl ⟨photo,by simpa using found,searching,rfl⟩
  | embedded asked locked present owned written =>
    obtain ⟨_,_,rfl⟩ := PhotoEmbeddingJobRepository.resultWrites_eq written
    exact .inl ⟨photo,by simpa using found,searching,rfl⟩
  | expired asked locked written =>
    obtain ⟨_,_,rfl⟩ := SqlExpirationStore.expireWrites_eq written
    exact .inl (searched_modify _ found searching fun _ status => by cases status)
  | matched asked locked present apart searching' timely checked written =>
    obtain ⟨_,_,_,_,_,rfl⟩ := SqlMatchFinalizationStore.finalizeWrites_eq written
    exact .inl (searched_modify _ found searching fun _ status => by cases status)
  | blocked asked written =>
    obtain ⟨_,_,rfl⟩ := SafetyRepository.blockWrites_eq written
    exact .inl ⟨photo,found,searching,rfl⟩
  | reportedUser asked written =>
    rcases ReportRepository.reportUserWrites_eq written with ⟨_,_,rfl⟩ | ⟨_,_,_,rfl⟩ <;>
      exact .inl ⟨photo,found,searching,rfl⟩
  | @reportedPhoto _ _ own _ _ _ asked locked written =>
    obtain ⟨_,_,rfl⟩ := ReportRepository.reportPhotoWrites_eq written
    cases own <;> exact .inl ⟨photo,found,searching,rfl⟩
  | sent asked pair locked parties turn reply written =>
    obtain ⟨_,_,_,rfl⟩ := PostcardRepository.sendWrites_eq written
    exact .inl ⟨photo,found,searching,rfl⟩

theorem Change.cleared (change : Change settings r t held w db events) (cleared : Cleared w.db)
    (clean : ∀ event ∈ events, ¬ event.strands w.db db) : Cleared db := by
  intro p photo found searching gone
  rcases change.leaves gone with before | ⟨photos,loaded,own,told⟩
  · rcases change.searched found searching with ⟨old,there,status,same⟩ | ⟨old,job,there,same,told⟩ |
      ⟨validation,job,told⟩
    · exact cleared p old there status (same ▸ before)
    · exact clean _ told ⟨old,there,same ▸ before⟩
    · exact clean _ told ⟨photo,found,before⟩
  · exact clean _ told ⟨p,photo,photos ▸ found,own.symm,searching⟩

/-- The photo of a participant who joins is the participant's, and was searched for. -/
theorem Change.joined {k : UUID × UUID} {row : MatchParticipant} (inv : Inv settings w)
    (change : Change settings r t held w db events) (new : w.db.participants.get? k = none)
    (found : db.participants.get? k = some row) : ∃ photo,
      w.db.photos.get? row.photoId = some photo ∧ photo.status = .searching ∧ photo.userId = k.2 := by
  rcases change.joins inv found with ⟨old,before⟩ | ⟨first,second,now,rfl,_,photo,there,searching,_⟩
  · rw [new] at before
    cases before
  · obtain ⟨photo',after,_,follows⟩ := change.photo there
    obtain ⟨_,other,found',owner,_⟩ := (change.keep inv).matches_.participant k.1 k.2 row found
    cases Option.some.inj (after.symm.trans found')
    exact ⟨photo,there,searching,follows.owner.symm.trans owner⟩

end changes

section runs
variable {K : Type} [Field K] [LinearOrder K] [IsStrictOrderedRing K] [FloorRing K]
  {settings : Settings} {sqrt : ℚ → K} {users : Table User.id} {s : Backend}

theorem clean_reach {a b : Backend} (runs : Runs (program settings sqrt) Clean a b) :
    Reach (program settings sqrt) Discipline.none a b :=
  Reach.of_runs runs fun _ action _ _ => Reach.admits_none action

/-- What a clean step makes of the world. -/
theorem Reachable.cleanly (reachable : Reachable settings sqrt users s)
    {action : Action Input Exc Request} {u : Backend}
    (taken : s.step (program settings sqrt) action = some u) (clean : Clean s action u) :
    u.db = s.db ∨ ∃ r t held events, Change settings r t held s.world u.db events ∧
      ∀ event ∈ events, ¬ event.strands s.db u.db := by
  rcases reachable.change taken with same | ⟨t,i,session,held,db,events,_,_,_,change,same⟩
  · exact .inl (congrArg World.db same)
  · have after : u.db = db := congrArg World.db same
    have log : u.world.log = s.world.log ++ events.map fun event => (t,event) := by
      rw [same,World.log_record]
    refine .inr ⟨session.request,t,held,events,after ▸ change,fun event member => ?_⟩
    exact clean _ log t event (List.mem_map_of_mem member)

theorem cleared_of_runs (runs : Runs (program settings sqrt) Clean (launch users) s) :
    Cleared s.db := by
  induction runs with
  | refl =>
    intro p photo found
    cases found
  | @tail a b before link ih =>
    obtain ⟨action,taken,clean⟩ := link
    have reachable : Reachable settings sqrt users a := clean_reach before
    rcases reachable.cleanly taken clean with same | ⟨r,t,held,events,change,each⟩
    · rw [same]
      exact ih
    · exact change.cleared ih each

/-- Who has withdrawn stays so. -/
theorem gone_of_reach {u : Backend} {userId : UUID} (reachable : Reachable settings sqrt users s)
    (later : Reach (program settings sqrt) Discipline.none s u) (gone : s.db.gone userId) : u.db.gone userId := by
  induction later with
  | refl => exact gone
  | @step a b action before taken admitted ih =>
    have there : Reachable settings sqrt users a := Reach.trans reachable before
    rcases there.change taken with same | ⟨t,i,session,held,db,events,_,_,_,change,same⟩
    · have still : b.db = a.db := congrArg World.db same
      rw [still]
      exact ih
    · have after : b.db = db := congrArg World.db same
      rw [after]
      exact change.gone ih

theorem unmatched_of_runs {u : Backend} {matchId userId : UUID}
    (first : Runs (program settings sqrt) Clean (launch users) s)
    (runs : Runs (program settings sqrt) Clean s u) (gone : s.db.gone userId)
    (none_ : s.db.participants.get? (matchId,userId) = none) :
    u.db.gone userId ∧ u.db.participants.get? (matchId,userId) = none := by
  induction runs with
  | refl => exact ⟨gone,none_⟩
  | @tail a b before link ih =>
    obtain ⟨action,taken,clean⟩ := link
    obtain ⟨gone,none_⟩ := ih
    have reachable : Reachable settings sqrt users a := clean_reach (first.trans before)
    rcases reachable.cleanly taken clean with same | ⟨r,t,held,events,change,each⟩
    · rw [same]
      exact ⟨gone,none_⟩
    · refine ⟨change.gone gone,?_⟩
      by_contra joined
      obtain ⟨row,found⟩ := Option.ne_none_iff_exists'.mp joined
      obtain ⟨photo,there,searching,own⟩ := change.joined reachable.inv none_ found
      exact cleared_of_runs (first.trans before) _ photo there searching (own ▸ gone)

/-- Where no step strands a photo, withdrawn users are out of matching. -/
theorem outOfMatching (runs : Runs (program settings sqrt) Clean (launch users) s) :
    OutOfMatching (program settings sqrt) s where
  listed sourcePhotoId sourceUserId now limit row member := by
    have listed := List.mem_of_mem_take member
    rw [SqlPhotoEmbeddingStore.eligibleRows,List.mem_insertionSort,List.mem_filterMap] at listed
    obtain ⟨photo,inside,joined⟩ := listed
    obtain ⟨embedding,_,rfl⟩ := Option.map_eq_some_iff.mp joined
    obtain ⟨present,eligible⟩ := List.mem_filter.mp inside
    have searching : photo.status = .searching := (of_decide_eq_true eligible).2.2.1
    exact cleared_of_runs runs _ photo (Table.get?_of_mem present) searching
  matched u later matchId userId gone none_ := (unmatched_of_runs runs later gone none_).2

end runs

namespace Sample

def gone? (db : Db) (userId : UUID) : Bool :=
  (db.users.get? userId).any fun row => row.status = .withdrawn

theorem gone_iff {db : Db} {userId : UUID} : gone? db userId = true ↔ db.gone userId := by
  rw [gone?,Option.any_eq_true]
  simp [Db.gone]

def strands? (before after : Db) : Event → Bool
  | .account (.withdrawn loaded) => before.photos.rows.any fun photo =>
      photo.userId = loaded.id ∧ photo.status = .searching
  | .photoPassed p _ => (before.photos.get? p).any fun photo => gone? before photo.userId
  | .photoCreated p _ (some _) => (after.photos.get? p).any fun photo => gone? before photo.userId
  | _ => false

theorem strands_of {before after : Db} {event : Event} (strands : event.strands before after) :
    strands? before after event = true := by
  unfold Event.strands at strands
  split at strands
  next loaded =>
    obtain ⟨p,photo,found,own,searching⟩ := strands
    have member := (Table.mem_rows_of_get? found).1
    exact List.any_eq_true.mpr ⟨photo,member,decide_eq_true ⟨own,searching⟩⟩
  next p job =>
    obtain ⟨photo,found,gone⟩ := strands
    simpa [strands?,found] using gone_iff.mpr gone
  next p validation job =>
    obtain ⟨photo,found,gone⟩ := strands
    simpa [strands?,found] using gone_iff.mpr gone
  next => exact strands.elim

def isClean (s : Backend) (_ : Action Input Exc Request) (u : Backend) : Bool :=
  (u.world.log.drop s.world.log.length).all fun entry => !strands? s.db u.db entry.2

theorem clean_sound (s : Backend) (action : Action Input Exc Request) (u : Backend)
    (passes : isClean s action u = true) : Clean s action u := by
  intro new log t event member strands
  rw [isClean,log,List.drop_left] at passes
  have each := List.all_eq_true.mp passes _ member
  rw [strands_of strands] at each
  cases each

/-- A user withdraws whose photo the others can find. -/
def withdrew : List (Action Input Exc Request) :=
  deliveredOne ++ session 8 (.account (.withdraw 1)) 4 (input 9 900)

end Sample

theorem outOfMatching_withdrawn : ∃ s : Backend, s.db.gone 3 ∧
    s.db.photos.rows.length = 2 ∧ OutOfMatching (program Sample.settings Rat.sqrt) s := by
  obtain ⟨s,runs,told⟩ := Sample.reachedWhile Clean Sample.isClean
    (fun s action u _ => Sample.clean_sound s action u)
    (Sample.deliveredOne ++ Sample.session 8 (.account (.withdraw 3)) 4 (Sample.input 9 900))
    (fun s => Sample.gone? s.db 3 && s.db.photos.rows.length = 2) (by decide +kernel)
  obtain ⟨gone,two⟩ := (Bool.and_eq_true _ _).mp told
  exact ⟨s,Sample.gone_iff.mp gone,of_decide_eq_true two,outOfMatching runs⟩

/-- The photo of a user who has withdrawn is listed, and matched when it was not before. -/
theorem withdrawn_still_matched :
    (¬ ∀ (settings : Settings) (users : Table User.id) (s : Backend)
      (sourcePhotoId sourceUserId : UUID) (now : Time) (row : Photo × PhotoEmbedding),
      Reachable settings Rat.sqrt users s → row ∈ SqlPhotoEmbeddingStore.buildCandidateQuery
        sourcePhotoId sourceUserId now 100 s.db → ¬ s.db.gone row.1.userId) ∧
    ¬ ∀ (settings : Settings) (users : Table User.id) (s u : Backend) (matchId userId : UUID),
      Reachable settings Rat.sqrt users s →
      Reach (program settings Rat.sqrt) Discipline.none s u → s.db.gone userId →
      s.db.participants.get? (matchId,userId) = none →
        u.db.participants.get? (matchId,userId) = none := by
  obtain ⟨s,u,first,found,second,joined⟩ := Sample.continued (fun _ _ _ => True) (fun _ _ _ => true)
    (fun _ _ _ _ => trivial) Sample.withdrew (Sample.delivery 6 2101 17)
    (fun s => Sample.gone? s.db 1 && (s.db.participants.get? (6150,1)).isNone &&
      (SqlPhotoEmbeddingStore.buildCandidateQuery 12 2 10 100 s.db).any fun row =>
        row.1.userId = 1)
    (fun u => (u.db.participants.get? (6150,1)).isSome) (by decide +kernel)
  obtain ⟨found,listed⟩ := (Bool.and_eq_true _ _).mp found
  obtain ⟨gone,absent⟩ := (Bool.and_eq_true _ _).mp found
  have reachable : Reachable Sample.settings Rat.sqrt Sample.users s :=
    Reach.of_runs first fun _ action _ _ => Reach.admits_none action
  have left := Sample.gone_iff.mp gone
  refine ⟨fun claim => ?_,fun claim => ?_⟩
  · obtain ⟨row,member,own⟩ := List.any_eq_true.mp listed
    exact claim _ _ s 12 2 10 row reachable member (of_decide_eq_true own ▸ left)
  · have none_ := claim _ _ s u 6150 1 reachable
      (Reach.of_runs second fun _ action _ _ => Reach.admits_none action) left
      (Option.isNone_iff_eq_none.mp absent)
    rw [none_] at joined
    cases joined

end Dalm
