import Dalm.Relational.Completion
import Dalm.History
import Dalm.Reachable
import Dalm.Uploads

/-! An upload leaves no photo without its image, where its session does not fail after the
photo is committed: the compensating delete does not ask whether it was. -/
namespace Dalm
open Relational HomeRepository

/-- A photo row a session committed. -/
def Committed (s : Backend) (t : Nat) (photo : Photo) : Prop :=
  ∃ p validation job, (t,.photoCreated p validation job) ∈ s.world.log ∧
    s.db.photos.get? p = some photo

/-- What is asked of an upload that has ended. -/
structure KeepsImage (s : Backend) (t : Nat) (response : Except Exc CreatePhotoData)
    (objects : Objects) : Prop where
  stored : ∀ photo, Committed s t photo → ∃ key ∈ objects, photo.storageKey = some key
  failed : ∀ error, response = .error error → ∀ photo, ¬ Committed s t photo

/-- The repository is called once the object is stored; its session has ended. -/
def Called (s : Backend) (t : Nat) (upload : PhotoUpload) (faults : StorageFaults)
    (created : Except Exc Photo) : Prop :=
  match faults.upload with
  | some _ => s.session t = none
  | none => s.session t = some ⟨.createPhoto upload.arguments upload.mockPassed,
      .inr (created.map fun photo => .photo (some photo))⟩

/-- The session of the upload failed when its photo was committed: the refresh failed. -/
def FailsCommitted (run : Request → App Response) (users : Table User.id) (s : Backend) (t : Nat) :
    Prop := DiesAfter run Discipline.none (launch users) s Event.isCreation t

section programs
variable {photoId : UUID}

theorem quiet_expireStaleValidations (userId : UUID) :
    (expireStaleValidations userId).Quiet Event.isCreation := by
  refine Txn.quiet_bind Txn.quiet_supply fun clock => Txn.quiet_bind (Txn.quiet_query _) fun stale =>
    Txn.quiet_bind (Txn.quiet_lockEach _) fun rows => ?_
  split
  · trivial
  · refine Txn.quiet_bind (Txn.quiet_commitOr ?_) fun _ => trivial
    intro i db db' events written event member
    cases written
    rw [List.mem_singleton.mp member]
    exact fun creation => creation

theorem completes_registerPhoto (arguments : PhotoArguments) (mock : Bool) (start : Time) :
    (registerPhoto arguments mock start).Completes Event.isCreation
      fun db => (db.photos.get? arguments.photoId).isSome := by
  refine Txn.completes_bind Txn.quiet_supply fun order => Txn.completes_bind (Txn.quiet_query _) fun _ =>
    Txn.completes_bind (Txn.quiet_lockEach _) fun cleared =>
    Txn.completes_bind (Txn.quiet_query _) fun duplicates => ?_
  unfold atMostOne
  split
  · refine Txn.completes_bind Txn.quiet_supply fun clock => fun i => ⟨trivial,?_⟩
    intro db db' events written
    obtain ⟨fresh,_,_,_,same⟩ := createWrites_photos written
    refine .inr ⟨?_,fun db there => ?_⟩
    · rw [same]
      exact Option.isSome_iff_exists.mpr ⟨_,Table.get?_insert_self fresh⟩
    · obtain ⟨photo,found⟩ := Option.isSome_iff_exists.mp there
      simp only [found]
      trivial
  · trivial
  · trivial

theorem completes_createPhoto (arguments : PhotoArguments) (mock : Bool) :
    (createPhoto arguments mock).Completes Event.isCreation
      fun db => (db.photos.get? arguments.photoId).isSome := by
  refine Txn.completes_bind Txn.quiet_supply fun clock => Txn.completes_bind (Txn.quiet_query _) fun user => ?_
  split
  · trivial
  · split
    · trivial
    · refine Txn.completes_bind (quiet_expireStaleValidations _) fun committed =>
        Txn.completes_bind Txn.quiet_supply fun reopened =>
        Txn.completes_bind (Txn.quiet_query _) fun actives => ?_
      unfold atMostOne
      split
      · exact completes_registerPhoto _ _ _
      · trivial
      · trivial

end programs

section runs
variable {K : Type} [Field K] [LinearOrder K] [IsStrictOrderedRing K] [FloorRing K]
  {settings : Settings} {sqrt : ℚ → K} {users : Table User.id} {s u : Backend} {t : Nat}

/-- What the history tells of a photo its session registered. -/
theorem Reachable.registered (reachable : Reachable settings sqrt users s) {p validation : UUID}
    {job : Option UUID} (told : (t,.photoCreated p validation job) ∈ s.world.log) :
    ∃ arguments mock state, s.session t = some ⟨.createPhoto arguments mock,state⟩ ∧
      ∃ photo, s.db.photos.get? p = some photo ∧ photo.storageKey = some arguments.storageKey := by
  induction reachable with
  | refl => cases told
  | @step a b action before taken admitted ih =>
    have here : Reachable settings sqrt users a := before
    have later : (t,.photoCreated p validation job) ∈ a.world.log → ∃ arguments mock state,
        b.session t = some ⟨.createPhoto arguments mock,state⟩ ∧
        ∃ photo, b.db.photos.get? p = some photo ∧ photo.storageKey = some arguments.storageKey := by
      intro old
      obtain ⟨arguments,mock,state,present,photo,found,key⟩ := ih old
      obtain ⟨state',present'⟩ := Reach.request_stays present taken
      obtain ⟨photo',found',follows⟩ := here.stays taken found
      exact ⟨arguments,mock,state',present',photo',found',follows.stored.trans key⟩
    rcases here.change taken with same | ⟨v,i,session,held,db,events,rfl,present,_,change,same⟩
    · exact later (same ▸ told)
    · rw [same] at told
      rcases List.mem_append.mp told with old | new
      · exact later old
      · obtain ⟨event,member,equal⟩ := List.mem_map.mp new
        cases equal
        rcases change.creates with ⟨arguments,mock,_,_,now,_,asked,written⟩ | ⟨_,none_⟩
        · obtain ⟨fresh,_,_,rfl,photos⟩ := createWrites_photos written
          cases List.mem_singleton.mp member
          obtain ⟨state,present'⟩ := Reach.request_stays present taken
          rw [asked] at present'
          refine ⟨arguments,mock,state,present',newPhoto arguments mock now,?_,rfl⟩
          rw [show b.db = db from congrArg World.db same,photos]
          exact Table.get?_insert_self fresh
        · exact absurd trivial (none_ _ member)

/-- An upload keeps its image, and commits no photo where it fails, exactly if its session
does not fail after the commit. -/
theorem uploadKeepsImage (reachable : Reachable settings sqrt users s) {upload : PhotoUpload}
    {faults : StorageFaults} {created : Except Exc Photo}
    (called : Called s t upload faults created) (objects : Objects) :
    KeepsImage s t (createPhotoEndpoint upload faults created objects).1
        (createPhotoEndpoint upload faults created objects).2 ↔
      ¬ FailsCommitted (program settings sqrt) users s t := by
  have told : ∀ photo, Committed s t photo → Heard Event.isCreation t s.world.log := by
    intro photo committed
    obtain ⟨p,validation,job,member,_⟩ := committed
    exact ⟨_,member,trivial⟩
  cases stored : faults.upload with
  | some error =>
    simp only [Called,stored] at called
    have silent := Reach.unheard reachable rfl called
    refine iff_of_true ⟨fun photo committed => ?_,fun _ _ photo committed => ?_⟩ fun fails => ?_
    · obtain ⟨event,member,_⟩ := told photo committed
      exact absurd rfl (silent _ member)
    · obtain ⟨event,member,_⟩ := told photo committed
      exact absurd rfl (silent _ member)
    · obtain ⟨a,b,error,before,heard,died,after⟩ := fails
      cases Reach.taken_of_step died with
      | die running =>
        have ended := after.ended_stays Reach.put_self
        rw [called] at ended
        cases ended
  | none =>
    simp only [Called,stored] at called
    have stable : ∀ (a : Backend) action b, Reach (program settings sqrt) Discipline.none (launch users) a →
        a.step (program settings sqrt) action = some b →
        (a.db.photos.get? upload.arguments.photoId).isSome →
        (b.db.photos.get? upload.arguments.photoId).isSome := by
      intro a action b before taken there
      obtain ⟨photo,found⟩ := Option.isSome_iff_exists.mp there
      obtain ⟨photo',found',_⟩ := Reachable.stays (before : Reachable settings sqrt users a) taken found
      exact Option.isSome_iff_exists.mpr ⟨photo',found'⟩
    have completes := Txn.completes_map (g := fun photo => Response.photo (some photo))
      (completes_createPhoto upload.arguments upload.mockPassed)
    have fails := Reach.failed_iff reachable (fun _ => rfl) rfl stable completes called
    unfold FailsCommitted
    rw [← fails]
    cases created with
    | ok photo =>
      refine iff_of_true ⟨fun photo committed => ?_,fun _ same => by simp [createPhotoEndpoint,stored] at same⟩ ?_
      · obtain ⟨p,validation,job,member,found⟩ := committed
        obtain ⟨arguments,mock,state,present,photo',found',key⟩ := reachable.registered member
        cases called.symm.trans present
        cases found.symm.trans found'
        exact ⟨upload.storageKey,by simp [createPhotoEndpoint,stored],key⟩
      · intro failed
        obtain ⟨error,same⟩ := failed.1
        cases same
    | error error =>
      have response : (createPhotoEndpoint upload faults (.error error) objects).1 = .error error := by
        simp only [createPhotoEndpoint,stored]
        split <;> rfl
      constructor
      · intro keeps failed
        obtain ⟨event,member,kind⟩ := failed.2
        cases event with
        | photoCreated p validation job =>
          obtain ⟨_,_,_,_,photo,found,_⟩ := reachable.registered member
          exact keeps.failed error response photo ⟨p,validation,job,member,found⟩
        | _ => exact kind
      · intro early
        have none_ : ∀ photo, ¬ Committed s t photo := fun photo committed =>
          early ⟨⟨error,rfl⟩,told photo committed⟩
        exact ⟨fun photo committed => absurd committed (none_ photo),fun _ _ => none_⟩

end runs

namespace Sample

def image : PhotoUpload := ⟨11,1,"checksum",0,false⟩

/-- An upload whose session fails when all that is left to do is the refresh. -/
def unrefreshed : List (Action Input Exc Request) :=
  session 1 (.createPhoto image.arguments image.mockPassed) 11 (input 0 100) ++
    [.die 1 .noResultFound]

/-- The session was an upload of the image, ended in this error. -/
def failedUpload (s : Backend) (t : Nat) : Option Exc :=
  match s.session t with
  | some ⟨.createPhoto arguments mock,.inr (.error error)⟩ =>
    if arguments = image.arguments ∧ mock = image.mockPassed then some error else none
  | _ => none

theorem of_failedUpload {s : Backend} {t : Nat} {error : Exc} (found : failedUpload s t = some error) :
    Called s t image ⟨none,none⟩ (.error error) := by
  unfold failedUpload at found
  split at found
  next arguments mock other present =>
    split at found
    next same =>
      obtain ⟨rfl,rfl⟩ := same
      cases found
      exact present
    next => cases found
  next => cases found

/-- The photo is there, and the endpoint deletes its image. -/
theorem unrefreshed_run : ∃ s photo, Reachable settings Rat.sqrt users s ∧
    Called s 1 image ⟨none,none⟩ (.error .noResultFound) ∧ Committed s 1 photo := by
  obtain ⟨s,_,reachable,passed⟩ := reached unrefreshed (fun s =>
    failedUpload s 1 = some .noResultFound && (s.db.photos.get? 11).isSome &&
      s.world.log.contains (1,.photoCreated 11 100 none)) (by decide +kernel)
  obtain ⟨passed,told⟩ := (Bool.and_eq_true _ _).mp passed
  obtain ⟨failed,there⟩ := (Bool.and_eq_true _ _).mp passed
  obtain ⟨photo,found⟩ := Option.isSome_iff_exists.mp there
  exact ⟨s,photo,reachable,of_failedUpload (of_decide_eq_true failed),
    ⟨11,100,none,List.contains_iff_mem.mp told,found⟩⟩

end Sample

theorem uploadKeepsImage_unrefreshed : ∃ s : Backend,
    KeepsImage s 1 (createPhotoEndpoint Sample.image ⟨none,none⟩ (.error .noResultFound) []).1
        (createPhotoEndpoint Sample.image ⟨none,none⟩ (.error .noResultFound) []).2 ↔
      ¬ FailsCommitted (program Sample.settings Rat.sqrt) Sample.users s 1 := by
  obtain ⟨s,photo,reachable,called,_⟩ := Sample.unrefreshed_run
  exact ⟨s,uploadKeepsImage reachable called []⟩

/-- A refresh that fails leaves a committed photo, without its image, behind an error. -/
theorem photo_without_image :
    (¬ ∀ (settings : Settings) (users : Table User.id) (s : Backend) (t : Nat) (upload : PhotoUpload)
      (faults : StorageFaults) (created : Except Exc Photo) (objects : Objects) (photo : Photo),
      Reachable settings Rat.sqrt users s → Called s t upload faults created → Committed s t photo →
      ∃ key ∈ (createPhotoEndpoint upload faults created objects).2, photo.storageKey = some key) ∧
    ¬ ∀ (settings : Settings) (users : Table User.id) (s : Backend) (t : Nat) (upload : PhotoUpload)
      (faults : StorageFaults) (created : Except Exc Photo) (objects : Objects) (photo : Photo)
      (error : Exc), Reachable settings Rat.sqrt users s → Called s t upload faults created →
      (createPhotoEndpoint upload faults created objects).1 = .error error →
      ¬ Committed s t photo := by
  obtain ⟨s,photo,reachable,called,committed⟩ := Sample.unrefreshed_run
  have nothing : (createPhotoEndpoint Sample.image ⟨none,none⟩ (.error .noResultFound) []).2 = [] := by
    simp [createPhotoEndpoint]
  refine ⟨fun claim => ?_,fun claim => ?_⟩
  · obtain ⟨key,member,_⟩ := claim _ _ s 1 _ _ _ [] photo reachable called committed
    rw [nothing] at member
    cases member
  · exact claim _ _ s 1 _ _ _ [] photo .noResultFound reachable called rfl committed

end Dalm
