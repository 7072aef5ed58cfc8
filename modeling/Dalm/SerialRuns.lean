import Dalm.History
import Dalm.Reachable
import Dalm.Registration
import Dalm.Uploads
import Dalm.Relational.Serial

/-! The service with requests one at a time and a clock that moves on. The photos of a user
and a day then follow each other: each was registered when those before it had left the
day free. -/
namespace Dalm
open Relational HomeRepository

section runs
variable {K : Type} [Field K] [LinearOrder K] [IsStrictOrderedRing K] [FloorRing K]
  {settings : Settings} {sqrt : ℚ → K} {users : Table User.id} {n : Nat} {clock clock' : Time}
  {w : BackendWorld}

/-- The worlds that requests lead to one at a time. The clock readings of a request come after
those of the requests before it; an upload names its object as the endpoint does. -/
inductive Serially (settings : Settings) (sqrt : ℚ → K) (users : Table User.id) :
    Nat → Time → BackendWorld → Prop where
  | launch (clock : Time) : Serially settings sqrt users 0 clock ⟨Db.empty users,[]⟩
  | next {n : Nat} {clock clock' : Time} {w : BackendWorld} {r : Request} {inputs : Nat → Input}
      (before : Serially settings sqrt users n clock w) (onward : clock ≤ clock')
      (timely : ∀ k < (Txn.alone n inputs (program settings sqrt r) 0 w).next,
        clock < (inputs k).now ∧ (inputs k).now ≤ clock')
      (named : ∀ arguments mock, r = .createPhoto arguments mock →
        arguments.storageKey = PhotoUpload.keyOf arguments.userId arguments.photoId) :
    Serially settings sqrt users (n + 1) clock'
      (Txn.alone n inputs (program settings sqrt r) 0 w).world

theorem Serially.serial (serially : Serially settings sqrt users n clock w) :
    Serial (program settings sqrt) (Db.empty users) n w := by
  induction serially with
  | launch => exact .initial
  | next _ _ _ _ ih => exact ih.next _ _

theorem Serially.inv (serially : Serially settings sqrt users n clock w) : Inv settings w := by
  obtain ⟨s,reach,rfl,_⟩ := serially.serial.reach
  have reachable : Reachable settings sqrt users s := reach
  exact reachable.inv

/-- Every photo of after is one of before, changed as photos are. -/
def PhotosFollow (photos photos' : Photos) : Prop :=
  ∀ p photo', photos'.get? p = some photo' → ∃ photo, photos.get? p = some photo ∧
    photo.Follows photo'

theorem photosFollow_modify {photos : Photos} {chosen : UUID → Bool} {assign : Photo → Photo} {keeps}
    (each : ∀ p photo, photos.get? p = some photo → chosen p → photo.Follows (assign photo)) :
    PhotosFollow photos (photos.modify chosen assign keeps) := by
  intro p photo' found
  obtain ⟨photo,present,rfl⟩ := Table.get?_modify_eq_some.mp found
  refine ⟨photo,present,?_⟩
  split
  next picked => exact each p photo present picked
  next => exact .refl photo

theorem photosFollow_timedOut (userId : UUID) (now : Time) (db : Db) :
    PhotosFollow db.photos (timedOut userId now db).photos := by
  refine photosFollow_modify fun p photo found stale => ?_
  rw [found,Option.any_some] at stale
  have validating : photo.status = .validating := (of_decide_eq_true stale).2.1
  exact ⟨rfl,rfl,rfl,rfl,.inl rfl,.inr (by simp [timeOut,validating,PhotoStatus.allowed]),
    fun other => absurd validating other⟩

theorem photosFollow_released (db : Db) (cleared : List UUID) :
    PhotosFollow db.photos (released db cleared).photos := by
  apply photosFollow_modify
  · exact fun _ => rfl
  · exact fun _ _ _ _ => ⟨rfl,rfl,rfl,rfl,.inr rfl,.inl rfl,fun _ => ⟨rfl,rfl⟩⟩

theorem Change.photosFollow {r : Request} {t : Nat} {held : List RowKey} {db : Db} {events : List Event}
    (change : Change settings r t held w db events) :
    (∃ arguments mock cleared start now ids, r = .createPhoto arguments mock ∧
      createWrites arguments mock cleared start now ids w.db = some (db,events)) ∨
    PhotosFollow w.db.photos db.photos := by
  rcases change.creates with created | ⟨same,_⟩
  · exact .inl created
  · refine .inr fun p photo' found => ?_
    have there : (w.db.photos.get? p).isSome := by
      rw [← same,found]
      rfl
    obtain ⟨photo,present⟩ := Option.isSome_iff_exists.mp there
    obtain ⟨photo'',found',_,follows⟩ := change.photo present
    cases Option.some.inj (found.symm.trans found')
    exact ⟨photo,present,follows⟩

/-- No two photos were registered at one time, none after `clock`, and a photo was registered
when the earlier ones of its user and day had left the day free. -/
structure Dated (clock : Time) (photos : Photos) : Prop where
  past : ∀ p photo, photos.get? p = some photo → photo.registeredAt ≤ clock
  named : ∀ p photo, photos.get? p = some photo →
    photo.storageKey = some (PhotoUpload.keyOf photo.userId p)
  apart : ∀ p photo q other, photos.get? p = some photo → photos.get? q = some other →
    photo.registeredAt = other.registeredAt → p = q
  superseded : ∀ p photo q later, photos.get? p = some photo → photos.get? q = some later →
    photo.userId = later.userId → photo.registeredDate = later.registeredDate →
    photo.registeredAt < later.registeredAt → ¬ Db.isActive photo.status

theorem Dated.later {photos : Photos} (dated : Dated clock photos) (onward : clock ≤ clock') :
    Dated clock' photos :=
  ⟨fun p photo found => (dated.past p photo found).trans onward,dated.named,dated.apart,
    dated.superseded⟩

/-- A photo that has left its day does not come back to it. -/
theorem Photo.Follows.inactive {photo photo' : Photo} (follows : photo.Follows photo')
    (inactive : ¬ Db.isActive photo.status) : ¬ Db.isActive photo'.status := by
  rcases follows.status with same | allowed
  · rw [same]
    exact inactive
  · revert inactive allowed
    cases photo.status <;> cases photo'.status <;> simp [Db.isActive,PhotoStatus.allowed]

theorem Dated.follows {photos photos' : Photos} (dated : Dated clock photos)
    (follow : PhotosFollow photos photos') : Dated clock photos' := by
  refine ⟨?_,?_,?_,?_⟩
  · intro p photo' found
    obtain ⟨photo,present,follows⟩ := follow p photo' found
    rw [follows.registered]
    exact dated.past p photo present
  · intro p photo' found
    obtain ⟨photo,present,follows⟩ := follow p photo' found
    rw [follows.stored,follows.owner]
    exact dated.named p photo present
  · intro p photo' q other' found found' same
    obtain ⟨photo,present,follows⟩ := follow p photo' found
    obtain ⟨other,present',follows'⟩ := follow q other' found'
    rw [follows.registered,follows'.registered] at same
    exact dated.apart p photo q other present present' same
  · intro p photo' q later' found found' owner day before
    obtain ⟨photo,present,follows⟩ := follow p photo' found
    obtain ⟨later,present',follows'⟩ := follow q later' found'
    rw [follows.owner,follows'.owner] at owner
    rw [follows.dated,follows'.dated] at day
    rw [follows.registered,follows'.registered] at before
    exact follows.inactive (dated.superseded p photo q later present present' owner day before)

theorem Dated.insert {photos : Photos} {photo : Photo} (dated : Dated clock photos)
    (fresh : photos.get? photo.id = none) (after : clock < photo.registeredAt)
    (named : photo.storageKey = some (PhotoUpload.keyOf photo.userId photo.id))
    (free : ∀ q other, photos.get? q = some other → other.userId = photo.userId →
      other.registeredDate = photo.registeredDate → ¬ Db.isActive other.status) :
    Dated photo.registeredAt (photos.insert photo fresh) := by
  have earlier : ∀ {p other}, photos.get? p = some other → other.registeredAt < photo.registeredAt :=
    fun found => (dated.past _ _ found).trans_lt after
  have known : ∀ {p other}, (photos.insert photo fresh).get? p = some other →
      (photo.id = p ∧ other = photo) ∨ photos.get? p = some other := Table.get?_insert_cases fresh
  refine ⟨?_,?_,?_,?_⟩
  · intro p other found
    rcases known found with ⟨_,rfl⟩ | old
    · exact le_rfl
    · exact (earlier old).le
  · intro p other found
    rcases known found with ⟨rfl,rfl⟩ | old
    · exact named
    · exact dated.named p other old
  · intro p one q two found found' same
    rcases known found with ⟨rfl,rfl⟩ | old
    · rcases known found' with ⟨rfl,rfl⟩ | old'
      · rfl
      · exact absurd same (earlier old').ne'
    · rcases known found' with ⟨rfl,rfl⟩ | old'
      · exact absurd same (earlier old).ne
      · exact dated.apart p one q two old old' same
  · intro p one q two found found' owner day before
    rcases known found with ⟨rfl,rfl⟩ | old
    · rcases known found' with ⟨rfl,rfl⟩ | old'
      · exact absurd before (lt_irrefl _)
      · exact absurd before (earlier old').asymm
    · rcases known found' with ⟨rfl,rfl⟩ | old'
      · exact free p one old owner day
      · exact dated.superseded p one q two old old' owner day before

theorem Dated.created {arguments : PhotoArguments} {mock : Bool} {cleared : List UUID}
    {start now : Time} {ids : Input} {db db' : Db} {events : List Event} (dated : Dated clock db.photos)
    (written : createWrites arguments mock cleared start now ids db = some (db',events))
    (named : arguments.storageKey = PhotoUpload.keyOf arguments.userId arguments.photoId)
    (after : clock < now) : Dated now db'.photos := by
  have compatible := createWrites_compatible written
  obtain ⟨fresh,_,_,_,photos⟩ := createWrites_photos written
  rw [photos]
  refine (dated.follows (photosFollow_released db cleared)).insert fresh after
    (congrArg some named) fun q other found owner day active => ?_
  have apart := (of_decide_eq_true (compatible other (Table.mem_rows_of_get? found).1)).2.2
  have new : Db.isActive (newPhoto arguments mock now).status = true := by cases mock <;> rfl
  rcases apart with one | two | three
  · rw [new] at one
    cases one
  · rw [active] at two
    cases two
  · exact three (Prod.ext owner.symm day.symm)

/-- A registration that runs alone keeps the photos dated. -/
theorem Dated.registered {arguments : PhotoArguments} {mock : Bool} {inputs : Nat → Input}
    {now : Time} {e : Ended Db Event Exc Photo} (dated : Dated clock w.db.photos)
    (onward : clock ≤ clock')
    (timely : ∀ k < e.next, clock < (inputs k).now ∧ (inputs k).now ≤ clock')
    (named : arguments.storageKey = PhotoUpload.keyOf arguments.userId arguments.photoId)
    (registration : Registration arguments mock inputs now w e) : Dated clock' e.world.db.photos := by
  cases registration with
  | unfit => exact dated.later onward
  | refused expired =>
    subst expired
    exact (dated.follows (photosFollow_timedOut _ _ _)).later onward
  | conflict expired =>
    subst expired
    exact (dated.follows (photosFollow_timedOut _ _ _)).later onward
  | registered earlier expired known active onboarded free single releases written =>
    subst expired
    obtain ⟨after,late⟩ := timely _ earlier
    have before := dated.follows (photosFollow_timedOut arguments.userId now w.db)
    exact (before.created written named after).later late

theorem Dated.own {r : Request} {t : Nat} {w' : BackendWorld} (dated : Dated clock w.db.photos)
    (other : ∀ arguments mock, r ≠ .createPhoto arguments mock)
    (own : Txn.Own (protocol settings) r t w w') : Dated clock w'.db.photos := by
  induction own with
  | refl => exact dated
  | tail _ link ih =>
    obtain ⟨held,_,db,events,change,rfl⟩ := link
    rcases change.photosFollow with ⟨arguments,mock,_,_,_,_,asked,_⟩ | follow
    · exact absurd asked (other arguments mock)
    · exact ih.follows follow

theorem Serially.dated (serially : Serially settings sqrt users n clock w) :
    Dated clock w.db.photos := by
  induction serially with
  | launch clock =>
    have nothing : ∀ p photo, (Db.empty users).photos.get? p ≠ some photo := fun p photo found => by
      cases found
    exact ⟨fun p photo found => absurd found (nothing p photo),
      fun p photo found => absurd found (nothing p photo),
      fun p photo _ _ found => absurd found (nothing p photo),
      fun p photo _ _ found => absurd found (nothing p photo)⟩
  | @next n clock clock' w r inputs before onward timely named ih =>
    by_cases creates : ∃ arguments mock, r = .createPhoto arguments mock
    · obtain ⟨arguments,mock,rfl⟩ := creates
      rw [program,Txn.alone_map] at timely ⊢
      exact ih.registered onward timely (named arguments mock rfl) (alone_createPhoto arguments mock)
    · have other : ∀ arguments mock, r ≠ .createPhoto arguments mock :=
        fun arguments mock same => creates ⟨arguments,mock,same⟩
      have silent := before.serial.silent
      have own : Txn.Own (protocol settings) r n w
          (Txn.alone n inputs (program settings sqrt r) 0 w).world :=
        (Txn.wp_alone before.inv (Held.holds_nil _)
          (meets settings Discipline.none sqrt r n w before.inv silent)).2.2
      exact (ih.own other own).later onward

end runs
end Dalm
