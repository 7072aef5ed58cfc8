import Dalm.Fresh
import Dalm.SerialRuns

/-! What a registration accepts, what it writes and what it leaves as it was. Between two photos
of a reachable database every constraint holds, so a guard never finds two rows; and a photo
that passed the guards meets the constraints. -/
namespace Dalm
open Relational Txn HomeRepository

section apart
variable {photo photo' other other' : Photo} {photos photos' : Photos}

theorem photosCompatible_symm (apart : Db.photosCompatible photo other = true) :
    Db.photosCompatible other photo = true := by
  obtain ⟨stored,carried,day⟩ := of_decide_eq_true apart
  refine decide_eq_true ⟨?_,?_,?_⟩
  · by_cases none_ : other.storageKey = none
    · exact .inl none_
    · refine .inr fun same => ?_
      rcases stored with absent | differs
      · exact none_ (same.trans absent)
      · exact differs same.symm
  · by_cases none_ : other.checksum = none
    · exact .inl none_
    · refine .inr fun same => ?_
      rcases carried with absent | differs
      · exact none_ ((Prod.ext_iff.mp same).2.trans absent)
      · exact differs same.symm
  · rcases day with one | two | differs
    · exact .inr (.inl one)
    · exact .inl two
    · exact .inr (.inr fun same => differs same.symm)

/-- Constraints that hold of two photos hold of what becomes of them. -/
theorem Photo.Follows.compatible (follows : photo.Follows photo')
    (apart : Db.photosCompatible photo other = true) : Db.photosCompatible photo' other = true := by
  obtain ⟨stored,carried,day⟩ := of_decide_eq_true apart
  refine decide_eq_true ⟨?_,?_,?_⟩
  · rw [follows.stored]
    exact stored
  · rcases follows.checksum with same | cleared
    · rw [same,follows.owner]
      exact carried
    · exact .inl cleared
  · rw [follows.owner,follows.dated]
    rcases day with one | rest
    · refine .inl ?_
      have inactive := follows.inactive (by simpa using one)
      simpa using inactive
    · exact .inr rest

/-- Between two photos every constraint holds. -/
def PhotosApart (photos : Photos) : Prop :=
  ∀ p photo q other, photos.get? p = some photo → photos.get? q = some other → p ≠ q →
    Db.photosCompatible photo other

theorem PhotosApart.follows (apart : PhotosApart photos) (follow : PhotosFollow photos photos') :
    PhotosApart photos' := by
  intro p photo' q other' found found' differs
  obtain ⟨photo,present,follows⟩ := follow p photo' found
  obtain ⟨other,present',follows'⟩ := follow q other' found'
  have one := follows.compatible (apart p photo q other present present' differs)
  exact photosCompatible_symm (follows'.compatible (photosCompatible_symm one))

theorem PhotosApart.insert (apart : PhotosApart photos) (fresh : photos.get? photo.id = none)
    (compatible : ∀ other ∈ photos.rows, Db.photosCompatible photo other) :
    PhotosApart (photos.insert photo fresh) := by
  intro p one q two found found' differs
  rcases Table.get?_insert_cases fresh found with ⟨rfl,rfl⟩ | old
  · rcases Table.get?_insert_cases fresh found' with ⟨rfl,rfl⟩ | old'
    · exact absurd rfl differs
    · exact compatible two (Table.mem_rows_of_get? old').1
  · rcases Table.get?_insert_cases fresh found' with ⟨rfl,rfl⟩ | old'
    · exact photosCompatible_symm (compatible one (Table.mem_rows_of_get? old).1)
    · exact apart p one q two old old' differs

theorem PhotosApart.not_several (apart : PhotosApart photos) {chosen : Photo → Bool} {taken : Exc}
    (exclusive : ∀ photo other, chosen photo → chosen other → ¬ Db.photosCompatible photo other)
    {error : Exc} (found : Found chosen taken photos error) : error = taken := by
  cases found with
  | one => rfl
  | @several photo other present picked differs =>
    have compatible := apart _ photo _ other (Table.get?_of_mem present.1)
      (Table.get?_of_mem present.2) differs
    exact absurd compatible (exclusive photo other picked.1 picked.2)

theorem exclusive_day {userId : UUID} {date : Date} (photo other : Photo)
    (active : isActiveOn userId date photo) (active' : isActiveOn userId date other) :
    ¬ Db.photosCompatible photo other := by
  obtain ⟨owner,day,status⟩ := of_decide_eq_true active
  obtain ⟨owner',day',status'⟩ := of_decide_eq_true active'
  intro compatible
  rcases (of_decide_eq_true compatible).2.2 with one | two | differs
  · simp [status] at one
  · simp [status'] at two
  · exact differs (Prod.ext (owner.trans owner'.symm) (day.trans day'.symm))

theorem exclusive_checksum {userId : UUID} {checksum : String} (photo other : Photo)
    (duplicate : isDuplicate userId checksum photo) (duplicate' : isDuplicate userId checksum other) :
    ¬ Db.photosCompatible photo other := by
  obtain ⟨owner,carried,_⟩ := of_decide_eq_true duplicate
  obtain ⟨owner',carried',_⟩ := of_decide_eq_true duplicate'
  intro compatible
  rcases (of_decide_eq_true compatible).2.1 with none_ | differs
  · rw [none_] at carried
    cases carried
  · exact differs (Prod.ext (owner.trans owner'.symm) (carried.trans carried'.symm))

end apart

section runs
variable {K : Type} [Field K] [LinearOrder K] [IsStrictOrderedRing K] [FloorRing K]
  {settings : Settings} {sqrt : ℚ → K} {users : Table User.id} {s : Backend}

theorem Change.photosApart {r : Request} {t : Nat} {held : List RowKey} {w : BackendWorld} {db : Db}
    {events : List Event} (change : Change settings r t held w db events)
    (apart : PhotosApart w.db.photos) : PhotosApart db.photos := by
  rcases change.photosFollow with ⟨arguments,mock,cleared,start,now,ids,_,written⟩ | follow
  · have compatible := createWrites_compatible written
    obtain ⟨fresh,_,_,_,photos⟩ := createWrites_photos written
    rw [photos]
    exact (apart.follows (photosFollow_released w.db cleared)).insert fresh compatible
  · exact apart.follows follow

theorem Reachable.photosApart (reachable : Reachable settings sqrt users s) :
    PhotosApart s.world.db.photos := by
  have launched : Reachable settings sqrt users (launch users) := .refl
  refine launched.preserves (F := fun w => PhotosApart w.db.photos) reachable ?_ ?_
  · intro p photo q other found
    cases found
  · intro r t held a db events _ change _ apart
    exact change.photosApart apart

end runs

section guards
variable {settings : Settings} {w : BackendWorld} {db : Db} {arguments : PhotoArguments} {mock : Bool}
  {cleared : List UUID} {start now clock : Time} {ids : Input}

/-- The new photo meets the constraints if the guards found nothing. -/
theorem compatible_of_guards
    (unstored : ∀ photo ∈ db.photos.rows, photo.storageKey ≠ some arguments.storageKey)
    (free : ∀ photo ∈ db.photos.rows, ¬ isActiveOn arguments.userId arguments.registeredDate photo)
    (single : ∀ photo ∈ db.photos.rows, ¬ isDuplicate arguments.userId arguments.checksum photo)
    (releases : ∀ id, cleared.contains id =
      (db.photos.get? id).any (isHistorical arguments.userId arguments.checksum)) :
    ∀ photo ∈ (released db cleared).photos.rows,
      Db.photosCompatible (newPhoto arguments mock clock) photo := by
  intro photo member
  obtain ⟨before,inside,same⟩ := List.mem_map.mp member
  have found := Table.get?_of_mem inside
  have kept : photo.userId = before.userId ∧ photo.registeredDate = before.registeredDate ∧
      photo.status = before.status ∧ photo.storageKey = before.storageKey := by
    rw [← same]
    split <;> exact ⟨rfl,rfl,rfl,rfl⟩
  obtain ⟨owner,day,status,stored⟩ := kept
  refine decide_eq_true ⟨.inr fun key => ?_,.inr fun carried => ?_,?_⟩
  · rw [stored] at key
    exact unstored before inside key.symm
  · obtain ⟨user,checksum⟩ := Prod.ext_iff.mp carried
    split at same
    next =>
      rw [← same] at checksum
      cases checksum
    next other =>
      subst same
      by_cases gone : before.status = .rejected ∨ before.status = .deleted
      · refine other ((releases before.id).trans ?_)
        rw [found]
        exact decide_eq_true ⟨user.symm,checksum.symm,gone⟩
      · exact single before inside (decide_eq_true ⟨user.symm,checksum.symm,gone⟩)
  · by_cases active : Db.isActive photo.status = true
    · refine .inr (.inr fun both => ?_)
      obtain ⟨user,date⟩ := Prod.ext_iff.mp both
      exact free before inside (decide_eq_true
        ⟨owner.symm.trans user.symm,day.symm.trans date.symm,status ▸ active⟩)
    · exact .inr (.inl (by simpa using active))

theorem unstored_timedOut {userId : UUID} {key : String}
    (unstored : ∀ photo ∈ w.db.photos.rows, photo.storageKey ≠ some key) :
    ∀ photo ∈ (timedOut userId now w.db).photos.rows, photo.storageKey ≠ some key := by
  intro photo member
  obtain ⟨before,present,follows⟩ :=
    photosFollow_timedOut userId now w.db _ photo (Table.get?_of_mem member)
  rw [follows.stored]
  exact unstored before (Table.mem_rows_of_get? present).1

theorem Inv.writes_of_guards {user : User} (inv : Inv settings w)
    (known : w.db.users.get? arguments.userId = some user)
    (unused : w.db.photos.get? arguments.photoId = none)
    (unstored : ∀ photo ∈ w.db.photos.rows, photo.storageKey ≠ some arguments.storageKey)
    (fresh : ids.Fresh w.db) (expired : db = timedOut arguments.userId now w.db)
    (free : ∀ photo ∈ db.photos.rows, ¬ isActiveOn arguments.userId arguments.registeredDate photo)
    (single : ∀ photo ∈ db.photos.rows, ¬ isDuplicate arguments.userId arguments.checksum photo)
    (releases : ∀ id, cleared.contains id =
      (db.photos.get? id).any (isHistorical arguments.userId arguments.checksum)) :
    createWrites arguments mock cleared start clock ids db ≠ none := by
  subst expired
  have absent : (timedOut arguments.userId now w.db).photos.get? arguments.photoId = none := by
    unfold timedOut Db.updatePhotos
    rw [Table.get?_modify,unused]
    exact ite_self none
  have other : ∀ {p : UUID}, (w.db.photos.get? p).isSome → arguments.photoId ≠ p := by
    intro p there same
    rw [← same,unused] at there
    cases there
  have unvalidated : ∀ row ∈ w.db.validations.rows, arguments.photoId ≠ row.photoId :=
    fun row member => other (inv.validations.photo _ row (Table.get?_of_mem member))
  have unembedded : ∀ row ∈ w.db.embeddingJobs.rows, arguments.photoId ≠ row.photoId := by
    intro row member
    obtain ⟨v,validation,present,same⟩ := inv.embeddings.validated _ row (Table.get?_of_mem member)
    exact other (same ▸ inv.validations.photo v validation present)
  have there : ((timedOut arguments.userId now w.db).users.get? arguments.userId).isSome := by
    rw [show (timedOut arguments.userId now w.db).users.get? arguments.userId = some user from known]
    rfl
  have new : Input.Fresh (timedOut arguments.userId now w.db) ids :=
    ⟨fresh.distinct,fresh.validations,fresh.embeddingJobs,fresh.matches_,fresh.reports,
      fresh.notifications,fresh.postcards⟩
  exact createWrites_of_fresh there absent
    (compatible_of_guards (unstored_timedOut unstored) free single releases) unvalidated unembedded new

end guards

section exact
variable {settings : Settings} {w : BackendWorld} {db db' : Db} {arguments : PhotoArguments} {mock : Bool}

theorem cleared_id (row : Photo) : ({row with checksum := none} : Photo).id = row.id := rfl

/-- The database with the checksum of a user's rejected and deleted photos cleared. -/
def forgotten (userId : UUID) (checksum : String) (db : Db) : Db :=
  db.updatePhotos (fun id => (db.photos.get? id).any (isHistorical userId checksum))
    (fun row => {row with checksum := none}) cleared_id

/-- What a registration asks of the user, and of the photos left by the recovery. -/
structure Acceptable (arguments : PhotoArguments) (db recovered : Db) : Prop where
  user : ∃ user, db.users.get? arguments.userId = some user ∧ user.status = .active ∧
    ¬ user.onboardingRequired
  day : ∀ photo ∈ recovered.photos.rows, photo.userId = arguments.userId →
    photo.registeredDate = arguments.registeredDate → ¬ Db.isActive photo.status
  image : ∀ photo ∈ recovered.photos.rows, photo.userId = arguments.userId →
    photo.checksum = some arguments.checksum → photo.status = .rejected ∨ photo.status = .deleted

/-- What a registration writes, for a photo that waits for its validation and for one that is
taken as passed. -/
inductive Adds (arguments : PhotoArguments) (db : Db) : Bool → Photo → Db → Prop where
  | waiting {id : UUID} {start now : Time}
      (freshPhoto : (forgotten arguments.userId arguments.checksum db).photos.get?
        (newPhoto arguments false now).id = none)
      (freshValidation : db.validations.get? id = none) :
    Adds arguments db false (newPhoto arguments false now)
      {forgotten arguments.userId arguments.checksum db with
        photos := (forgotten arguments.userId arguments.checksum db).photos.insert
          (newPhoto arguments false now) freshPhoto
        validations := db.validations.insert (newValidation id arguments.photoId start) freshValidation}
  | passed {id job notice : UUID} {start now : Time}
      (freshPhoto : (forgotten arguments.userId arguments.checksum db).photos.get?
        (newPhoto arguments true now).id = none)
      (freshValidation : db.validations.get? id = none) (freshJob : db.embeddingJobs.get? job = none)
      (freshNotice : db.notifications.get? notice = none) :
    Adds arguments db true (newPhoto arguments true now)
      {forgotten arguments.userId arguments.checksum db with
        photos := (forgotten arguments.userId arguments.checksum db).photos.insert
          (newPhoto arguments true now) freshPhoto
        validations := db.validations.insert
          (mockValidation id arguments.photoId now start) freshValidation
        embeddingJobs := db.embeddingJobs.insert
          (PhotoValidationRepository.newEmbeddingJob job arguments.photoId start) freshJob
        notifications := db.notifications.insert
          (notification notice arguments.userId .validationPassed arguments.photoId start) freshNotice}

/-- A registration accepts what it should, refuses the rest for one of four reasons and leaves
of a refusal nothing but the recovery. -/
structure RegistersExactly (arguments : PhotoArguments) (mock : Bool) (recovered : Db) (w : BackendWorld)
    (e : Ended Db Event Exc Photo) : Prop where
  accepts : (∃ photo, e.result = .ok photo) ↔ Acceptable arguments w.db recovered
  reasons : ∀ error, e.result = .error error → error = accountNotActive ∨ error = onboardingRequired ∨
    error = todayPhotoAlreadyExists ∨ error = duplicatePhoto
  surprises : e.result ≠ .error photoConflict ∧ e.result ≠ .error .multipleResultsFound
  refuses : ∀ error, e.result = .error error → e.world.db = w.db ∨ e.world.db = recovered
  adds : ∀ photo, e.result = .ok photo → Adds arguments recovered mock photo e.world.db

theorem released_eq {cleared : List UUID} (releases : ∀ id, cleared.contains id =
    (db.photos.get? id).any (isHistorical arguments.userId arguments.checksum)) :
    released db cleared = forgotten arguments.userId arguments.checksum db := by
  have same : (fun id => cleared.contains id) = fun id =>
      (db.photos.get? id).any (isHistorical arguments.userId arguments.checksum) := funext releases
  unfold released forgotten
  simp only [same]

theorem adds_of_written {cleared : List UUID} {start now : Time} {ids : Input} {events : List Event}
    (releases : ∀ id, cleared.contains id =
      (db.photos.get? id).any (isHistorical arguments.userId arguments.checksum))
    (written : createWrites arguments mock cleared start now ids db = some (db',events)) :
    Adds arguments db mock (newPhoto arguments mock now) db' := by
  have same := released_eq releases
  cases mock with
  | false =>
    obtain ⟨_,_,freshPhoto,freshValidation,rfl⟩ := createWrites_plain written
    simp only [same] at freshPhoto ⊢
    exact .waiting freshPhoto freshValidation
  | true =>
    obtain ⟨_,_,_,freshPhoto,freshValidation,freshJob,freshNotice,rfl⟩ := createWrites_mock written
    simp only [same] at freshPhoto ⊢
    exact .passed freshPhoto freshValidation freshJob freshNotice

theorem Acceptable.free {recovered : Db} (acceptable : Acceptable arguments w.db recovered) :
    ∀ photo ∈ recovered.photos.rows,
      ¬ isActiveOn arguments.userId arguments.registeredDate photo := by
  intro photo member active
  obtain ⟨owner,day,status⟩ := of_decide_eq_true active
  exact acceptable.day photo member owner day status

theorem Acceptable.single {recovered : Db} (acceptable : Acceptable arguments w.db recovered) :
    ∀ photo ∈ recovered.photos.rows, ¬ isDuplicate arguments.userId arguments.checksum photo := by
  intro photo member duplicate
  obtain ⟨owner,carried,kept⟩ := of_decide_eq_true duplicate
  exact kept (acceptable.image photo member owner carried)

/-- A refusal with a reason is as it should be where the registration is not acceptable. -/
theorem registersExactly_refused {recovered : Db} {m : Nat} {error : Exc} {w' : BackendWorld}
    (unacceptable : ¬ Acceptable arguments w.db recovered)
    (reason : error = accountNotActive ∨ error = onboardingRequired ∨
      error = todayPhotoAlreadyExists ∨ error = duplicatePhoto)
    (left : w'.db = w.db ∨ w'.db = recovered) :
    RegistersExactly arguments mock recovered w ⟨.error error,m,w'⟩ := by
  refine ⟨?_,?_,⟨?_,?_⟩,fun _ _ => left,fun photo answered => by cases answered⟩
  · exact iff_of_false (fun ⟨photo,answered⟩ => by cases answered) unacceptable
  · intro other same
    cases same
    exact reason
  · intro same
    cases same
    rcases reason with same | same | same | same <;> cases same
  · intro same
    cases same
    rcases reason with same | same | same | same <;> cases same

theorem HomeRepository.Registration.exactly {inputs : Nat → Input} {now : Time}
    {e : Ended Db Event Exc Photo} (registration : Registration arguments mock inputs now w e)
    (inv : Inv settings w) (apart : PhotosApart w.db.photos)
    (unused : w.db.photos.get? arguments.photoId = none)
    (unstored : ∀ photo ∈ w.db.photos.rows, photo.storageKey ≠ some arguments.storageKey)
    (fresh : ∀ k, (inputs k).Fresh w.db) :
    RegistersExactly arguments mock (timedOut arguments.userId now w.db) w e := by
  have still := apart.follows (photosFollow_timedOut arguments.userId now w.db)
  cases registration with
  | unfit unfit named =>
    refine registersExactly_refused (fun acceptable => ?_) (named.imp id .inl) (.inl rfl)
    obtain ⟨user,found,active,onboarded⟩ := acceptable.user
    exact onboarded (unfit user found active)
  | refused expired taken =>
    subst expired
    rcases taken with actives | duplicates
    · refine registersExactly_refused (fun acceptable => ?_)
        (.inr (.inr (.inl (still.not_several exclusive_day actives)))) (.inr rfl)
      obtain ⟨photo,member,active⟩ := actives.exists
      exact acceptable.free photo member active
    · refine registersExactly_refused (fun acceptable => ?_)
        (.inr (.inr (.inr (still.not_several exclusive_checksum duplicates)))) (.inr rfl)
      obtain ⟨photo,member,duplicate⟩ := duplicates.exists
      exact acceptable.single photo member duplicate
  | conflict expired known free single releases written =>
    exact absurd written
      (inv.writes_of_guards known unused unstored (fresh _) expired free single releases)
  | @registered j m user cleared start db db' events log earlier expired known active onboarded free
      single releases written =>
    subst expired
    have acceptable : Acceptable arguments w.db (timedOut arguments.userId now w.db) := by
      refine ⟨⟨user,known,active,onboarded⟩,?_,?_⟩
      · intro photo member owner day status
        exact free photo member (decide_eq_true ⟨owner,day,status⟩)
      · intro photo member owner carried
        by_contra kept
        exact single photo member (decide_eq_true ⟨owner,carried,kept⟩)
    refine ⟨iff_of_true ⟨_,rfl⟩ acceptable,?_,⟨?_,?_⟩,?_,?_⟩
    · intro error failed
      cases failed
    · intro failed
      cases failed
    · intro failed
      cases failed
    · intro error failed
      cases failed
    · intro photo answered
      cases answered
      exact adds_of_written releases written

end exact

/-- A registration that runs alone accepts exactly what it should and fails cleanly. The recovery
reads the clock in the third statement. -/
theorem registrationExact {K : Type} [Field K] [LinearOrder K] [IsStrictOrderedRing K] [FloorRing K]
    {settings : Settings} {sqrt : ℚ → K} {users : Table User.id} {s : Backend} {inputs : Nat → Input}
    {arguments : PhotoArguments} (reachable : Reachable settings sqrt users s)
    (unused : s.world.db.photos.get? arguments.photoId = none)
    (unstored : ∀ photo ∈ s.world.db.photos.rows, photo.storageKey ≠ some arguments.storageKey)
    (fresh : ∀ k, (inputs k).Fresh s.world.db) (mock : Bool) (t : Nat) :
    RegistersExactly arguments mock (timedOut arguments.userId (inputs 2).now s.world.db) s.world
      (alone t inputs (createPhoto arguments mock) 0 s.world) :=
  (alone_createPhoto arguments mock).exactly reachable.inv reachable.photosApart unused unstored fresh

theorem registrationExact_uploaded : ∃ s, Sample.after Sample.uploaded = some s ∧
    RegistersExactly ⟨12,2,"","second","second",0⟩ false (timedOut 2 1000 s.world.db) s.world
      (alone 2 (fun _ => Sample.input 1000 200)
        (createPhoto ⟨12,2,"","second","second",0⟩ false) 0 s.world) := by
  obtain ⟨s,ran,reachable,test⟩ := Sample.reached Sample.uploaded (fun s =>
    decide (s.world.db.photos.get? 12 = none ∧
      (∀ photo ∈ s.world.db.photos.rows, photo.storageKey ≠ some "second") ∧
      (Sample.input 1000 200).Fresh s.world.db)) (by decide)
  obtain ⟨unused,unstored,fresh⟩ := of_decide_eq_true test
  exact ⟨s,ran,registrationExact reachable unused unstored (fun _ => fresh) false 2⟩

end Dalm
