import Dalm.ExactRegistration
import Dalm.Relational.Ordered
import Dalm.ShownPermissions
import Dalm.Today

/-! Whether another photo may be registered: the two screens that say so look at the latest
photo of the day, the registration at all of them. -/
namespace Dalm
open Relational Txn HomeRepository

instance : Std.Total registeredLater where
  total a b := by
    unfold registeredLater
    rcases lt_trichotomy a.registeredAt b.registeredAt with before | same | after
    · exact .inr (.inl before)
    · exact (le_total b.id a.id).imp (fun le => .inr ⟨same,le⟩) fun le => .inr ⟨same.symm,le⟩
    · exact .inl (.inl after)

instance : IsTrans _ registeredLater where
  trans a b c := by
    intro first second
    rcases first with before | ⟨same,le⟩
    · rcases second with before' | ⟨same',le'⟩
      · exact .inl (before'.trans before)
      · exact .inl (same' ▸ before)
    · rcases second with before' | ⟨same',le'⟩
      · exact .inl (same ▸ before')
      · exact .inr ⟨same.trans same',le'.trans le⟩

section latest
variable {userId : UUID} {today : Date} {clock : Time} {db : Db}

def isToday (userId : UUID) (today : Date) (photo : Photo) : Bool :=
  photo.userId = userId ∧ photo.registeredDate = today ∧ photo.status ≠ .deleted

/-- The latest photo of a day that is not deleted. -/
def latest (userId : UUID) (today : Date) (db : Db) : Option Photo :=
  ((db.photos.rows.filter (isToday userId today)).insertionSort registeredLater).head?

/-- Whether the latest photo leaves the day free. -/
def isAvailable (photo : Option Photo) : Bool :=
  photo.all fun photo => photo.status = .rejected ∨ photo.status = .deleted

theorem latest_eq_none (none_ : latest userId today db = none) :
    ∀ photo ∈ db.photos.rows, isToday userId today photo = false := head?_eq_none none_

theorem latest_eq_some {photo : Photo} (found : latest userId today db = some photo) :
    photo ∈ db.photos.rows ∧ isToday userId today photo = true ∧
      ∀ other ∈ db.photos.rows, isToday userId today other = true → registeredLater photo other :=
  head?_eq_some found

theorem isToday_of_active {photo : Photo} (active : isActiveOn userId today photo = true) :
    isToday userId today photo = true := by
  obtain ⟨owner,day,active⟩ := of_decide_eq_true active
  refine decide_eq_true ⟨owner,day,fun deleted => ?_⟩
  rw [deleted] at active
  cases active

/-- The latest photo of the day leaves it free exactly if every photo of the day does. -/
theorem Dated.isAvailable_latest (dated : Dated clock db.photos) :
    isAvailable (latest userId today db) = true ↔
      ∀ photo ∈ db.photos.rows, ¬ isActiveOn userId today photo := by
  cases found : latest userId today db with
  | none =>
    refine iff_of_true rfl fun photo member active => ?_
    have other := latest_eq_none found photo member
    rw [isToday_of_active active] at other
    cases other
  | some photo =>
    obtain ⟨member,chosen,later⟩ := latest_eq_some found
    obtain ⟨owner,day,_⟩ := of_decide_eq_true chosen
    rw [isAvailable,Option.all_some,decide_eq_true_iff]
    constructor
    · intro inactive other present active
      obtain ⟨owner',day',active'⟩ := of_decide_eq_true active
      rcases later other present (isToday_of_active active) with before | ⟨same,_⟩
      · exact dated.superseded _ other _ photo (Table.get?_of_mem present) (Table.get?_of_mem member)
          (owner'.trans owner.symm) (day'.trans day.symm) before active'
      · have equal := dated.apart _ photo _ other (Table.get?_of_mem member)
          (Table.get?_of_mem present) same
        have found := Table.get?_of_mem present
        rw [← equal] at found
        cases Option.some.inj (found.symm.trans (Table.get?_of_mem member))
        rcases inactive with status | status <;> rw [status] at active' <;> cases active'
    · intro free
      have inactive := free photo member
      by_contra neither
      refine inactive (decide_eq_true ⟨owner,day,?_⟩)
      revert neither
      cases photo.status <;> simp [Db.isActive]

end latest

section reading
variable {settings : Settings} {t n : Nat} {inputs : Nat → Input} {w : BackendWorld} {userId : UUID}
  {today : Date}

theorem alone_getTodayPhoto (t : Nat) (inputs : Nat → Input) (userId : UUID) (today : Date) (n : Nat)
    (w : BackendWorld) : ∃ m log, alone t inputs (HomeRepository.getTodayPhoto userId today) n w =
    ⟨.ok (latest userId today (timedOut userId (inputs n).now w.db)),m,
      ⟨timedOut userId (inputs n).now w.db,log⟩⟩ := by
  obtain ⟨committed,m,log,_,expired⟩ := alone_expireStaleValidations t inputs userId n w
  refine ⟨m + 1,log,?_⟩
  rw [HomeRepository.getTodayPhoto,alone_bind,expired]
  change alone t inputs (query (latest userId today)) m ⟨timedOut userId (inputs n).now w.db,log⟩ = _
  exact alone_select _

theorem reads_homeSummary (photo : Photo) : Reads t inputs (homeSummary photo) w :=
  reads_supply.bind fun _ => reads_pure _

theorem reads_activeToday (photo : Option Photo) : Reads t inputs (activeToday photo) w := by
  unfold activeToday
  cases photo with
  | none => exact reads_pure _
  | some photo =>
    dsimp only
    split
    · exact reads_pure _
    · split
      · exact (reads_homeSummary photo).bind fun _ => reads_pure _
      · exact reads_pure _

theorem reads_listSearchingPhotos {excludeToday : Bool} {size : Nat} {cursor : Option Cursor} :
    Reads t inputs (HomeRepository.listSearchingPhotos userId today excludeToday size cursor) w :=
  reads_query _

theorem reads_getNextUnviewedMatch :
    Reads t inputs (HomeRepository.getNextUnviewedMatch userId today) w :=
  (reads_query _).bind fun _ => (reads_query _).bind fun _ => reads_pure _

/-- The home screen says the day is free exactly if the latest photo leaves it so. -/
theorem alone_getHome (t : Nat) (inputs : Nat → Input) (seoulDate : Time → Date) (userId : UUID)
    (n : Nat) (w : BackendWorld) : ∃ data,
    (alone t inputs (getHome seoulDate userId) n w).result = .ok data ∧ data.canUploadToday =
      isAvailable (latest userId (seoulDate (inputs n).now) (timedOut userId (inputs (n + 1)).now w.db)) := by
  obtain ⟨m,log,found⟩ := alone_getTodayPhoto t inputs userId (seoulDate (inputs n).now) (n + 1) w
  rw [getHome,alone_supply,alone_bind,found]
  simp only [andThen]
  obtain ⟨searching,m₁,one⟩ := reads_listSearchingPhotos.goesOn _ m
  rw [one]
  obtain ⟨unviewed,m₂,two⟩ := reads_getNextUnviewedMatch.goesOn _ m₁
  rw [two]
  obtain ⟨active,m₃,three⟩ := (reads_activeToday _).goesOn _ m₂
  rw [three]
  obtain ⟨summaries,m₄,four⟩ := (reads_mapM reads_homeSummary (searching.take 3)).goesOn _ m₃
  rw [four,alone_pure]
  exact ⟨_,rfl,rfl⟩

theorem filter_flatMap_of {α β : Type} {p : β → Bool} {q : α → Bool} {f : α → List β} {items : List α}
    (determined : ∀ a, ∀ b ∈ f a, p b = q a) : (items.flatMap f).filter p = (items.filter q).flatMap f := by
  induction items with
  | nil => rfl
  | cons a items ih =>
    rw [List.flatMap_cons,List.filter_append,ih,List.filter_cons]
    have here : (f a).filter p = if q a then f a else [] := by
      split
      next accepted => exact List.filter_eq_self.mpr fun b inside => (determined a b inside).trans accepted
      next rejected =>
        exact List.filter_eq_nil_iff.mpr fun b inside accepted =>
          rejected ((determined a b inside).symm.trans accepted)
    rw [here]
    split <;> rfl

/-- A matched photo has one card. -/
theorem Seated.cardColumns_eq {m : UUID} {mine partner : MatchParticipant × Photo}
    (seated : Seated w.db m mine partner) (inv : Inv settings w) : ∃ match_,
    (HomeRepository.cardColumns mine.1.userId w.db).filter (fun row => row.mine.photoId = mine.2.id) =
      [⟨match_,mine.1,mine.2,partner.1,partner.2⟩] := by
  have here : mine.1.matchId = m := congrArg Prod.fst (Table.key_of_get? seated.mineRow)
  obtain ⟨match_,there⟩ :=
    Option.isSome_iff_exists.mp (inv.matches_.participant m _ _ seated.mineRow).1
  have key : match_.id = m := Table.key_of_get? there
  refine ⟨match_,?_⟩
  rw [HomeRepository.cardColumns,List.bind_eq_flatMap,
    filter_flatMap_of (q := fun row => row.photoId = mine.2.id),List.filter_filter]
  · have own := seated.own_eq inv
    simp only [Bool.decide_and] at own
    rw [own]
    simp [here,there,key,seated.minePhoto,seated.partnerPhoto,seated.partners_eq]
  · intro row columns inside
    simp only [List.bind_eq_flatMap,List.mem_flatMap,List.pure_def,List.mem_singleton] at inside
    obtain ⟨_,_,_,_,_,_,_,_,rfl⟩ := inside
    rfl

theorem reads_matchCard {photo : Photo} (inv : Inv settings w) (own : photo.userId = userId)
    (stored : w.db.photos.get? photo.id = some photo) : Reads t inputs (matchCard userId photo) w := by
  unfold matchCard
  split
  next matched =>
    subst own
    obtain ⟨m,u,row,found,used⟩ := inv.matches_.matched _ photo stored matched
    obtain ⟨_,other,stored',owner,_⟩ := inv.matches_.participant m u row found
    rw [used,stored] at stored'
    cases Option.some.inj stored'
    subst owner
    obtain ⟨mine,partner,same,seated⟩ := seated_of_participant inv (show (w.db.participants.get?
      (m,photo.userId)).isSome by rw [found]; rfl)
    have rows := Option.some.inj ((same ▸ seated.mineRow).symm.trans found)
    have image := seated.minePhoto
    rw [rows,used,stored] at image
    obtain ⟨match_,card⟩ := seated.cardColumns_eq inv
    rw [same,← Option.some.inj image] at card
    intro n
    rw [HomeRepository.getMatchCardForPhoto,alone_query,card]
    exact ⟨_,_,alone_pure _⟩
  next => exact reads_pure _

theorem reads_daysLeft (photo : Photo) : Reads t inputs (daysLeft photo) w := by
  unfold daysLeft
  split
  · exact reads_supply.bind fun _ => reads_pure _
  · exact reads_pure _

theorem inv_timedOut {m : Nat} {photo : Option Photo} {w' : BackendWorld} (inv : Inv settings w)
    (ran : alone t inputs (HomeRepository.getTodayPhoto userId today) n w = ⟨.ok photo,m,w'⟩) :
    Inv settings w' := by
  have pre : wp (protocol settings) Discipline.none (.todayPhoto userId today) t
      (HomeRepository.getTodayPhoto userId today) (fun _ _ _ => True) [] w :=
    wp_getTodayPhoto rfl fun _ _ _ => trivial
  have kept : (protocol settings).inv
      (alone t inputs (HomeRepository.getTodayPhoto userId today) n w).world :=
    (wp_alone inv (Held.holds_nil _) pre).2.1
  rw [ran] at kept
  exact kept

theorem alone_photosToday (t : Nat) (inputs : Nat → Input) (seoulDate : Time → Date) (userId : UUID)
    (n : Nat) (inv : Inv settings w) : ∃ data,
    (alone t inputs (getTodayPhoto seoulDate userId) n w).result = .ok data ∧ data.canRegister =
      isAvailable (latest userId (seoulDate (inputs n).now) (timedOut userId (inputs (n + 1)).now w.db)) := by
  obtain ⟨m,log,ran⟩ := alone_getTodayPhoto t inputs userId (seoulDate (inputs n).now) (n + 1) w
  have inv' := inv_timedOut inv ran
  rw [getTodayPhoto,alone_supply,alone_bind,ran]
  simp only [andThen]
  cases found : latest userId (seoulDate (inputs n).now) (timedOut userId (inputs (n + 1)).now w.db) with
  | none => exact ⟨_,rfl,rfl⟩
  | some photo =>
    obtain ⟨member,chosen,_⟩ := latest_eq_some found
    obtain ⟨owner,_,kept⟩ := of_decide_eq_true chosen
    obtain ⟨card,m₁,one⟩ := (reads_matchCard inv' owner (Table.get?_of_mem member)).goesOn _ m
    dsimp only
    rw [one]
    obtain ⟨remaining,m₂,two⟩ := (reads_daysLeft photo).goesOn _ m₁
    rw [two,alone_pure]
    refine ⟨_,rfl,?_⟩
    simp [isAvailable,kept]

end reading

section registering
variable {settings : Settings} {w : BackendWorld} {arguments : PhotoArguments} {clock now : Time}

/-- No photo of the user outside REJECTED and DELETED carries the checksum. -/
def Uncarried (arguments : PhotoArguments) (db : Db) : Prop :=
  ∀ photo ∈ db.photos.rows, photo.userId = arguments.userId → photo.checksum = some arguments.checksum →
    photo.status = .rejected ∨ photo.status = .deleted

theorem Uncarried.timedOut {db : Db} (uncarried : Uncarried arguments db) (userId : UUID) (now : Time) :
    Uncarried arguments (timedOut userId now db) := by
  intro photo member owner carried
  obtain ⟨before,inside,same⟩ := List.mem_map.mp member
  split at same
  next => exact .inl (by rw [← same]; rfl)
  next =>
    subst same
    exact uncarried before inside owner carried

theorem Dated.unstored {db : Db} (dated : Dated clock db.photos)
    (named : arguments.storageKey = PhotoUpload.keyOf arguments.userId arguments.photoId)
    (unused : db.photos.get? arguments.photoId = none) :
    ∀ photo ∈ db.photos.rows, photo.storageKey ≠ some arguments.storageKey := by
  intro photo member key
  have found := Table.get?_of_mem member
  rw [dated.named _ photo found] at key
  have ids := (PhotoUpload.keyOf_inj (named.symm.trans (Option.some.inj key).symm)).2
  rw [ids,found] at unused
  cases unused

/-- A registration that runs alone succeeds exactly if the latest photo leaves the day free. -/
theorem HomeRepository.Registration.available {mock : Bool} {inputs : Nat → Input} {e : Ended Db Event Exc Photo}
    {user : User} (registration : Registration arguments mock inputs now w e) (inv : Inv settings w)
    (dated : Dated clock w.db.photos)
    (found : w.db.users.get? arguments.userId = some user) (active : user.status = .active)
    (onboarded : ¬ user.onboardingRequired)
    (named : arguments.storageKey = PhotoUpload.keyOf arguments.userId arguments.photoId)
    (unused : w.db.photos.get? arguments.photoId = none) (uncarried : Uncarried arguments w.db)
    (fresh : ∀ k, (inputs k).Fresh w.db) :
    isAvailable (latest arguments.userId arguments.registeredDate (timedOut arguments.userId now w.db)) =
      true ↔ ∃ photo, e.result = .ok photo := by
  have before := dated.follows (photosFollow_timedOut arguments.userId now w.db)
  have still := uncarried.timedOut arguments.userId now
  rw [before.isAvailable_latest]
  cases registration with
  | unfit unfit => exact absurd (unfit user found active) onboarded
  | refused expired taken =>
    subst expired
    refine iff_of_false (fun free => ?_) fun ⟨_,answered⟩ => by cases answered
    rcases taken with actives | duplicates
    · obtain ⟨photo,member,active⟩ := actives.exists
      exact free photo member active
    · obtain ⟨photo,member,duplicate⟩ := duplicates.exists
      obtain ⟨owner,carried,other⟩ := of_decide_eq_true duplicate
      exact other (still photo member owner carried)
  | registered earlier expired known active onboarded free =>
    subst expired
    exact iff_of_true free ⟨_,rfl⟩
  | conflict expired known free single releases written =>
    subst expired
    exact absurd written (inv.writes_of_guards known unused (dated.unstored named unused) (fresh _) rfl
      free single releases)

end registering

/-- A registration is available: both screens say so, and one more goes through. -/
structure ReportedAs (available : Bool) (seoulDate : Time → Date) (userId : UUID) (instant : Time)
    (w : BackendWorld) : Prop where
  home : ∀ t inputs, (∀ k, (inputs k : Input).now = instant) → ∃ data,
    (alone t inputs (getHome seoulDate userId) 0 w).result = .ok data ∧
      data.canUploadToday = available
  today : ∀ t inputs, (∀ k, (inputs k : Input).now = instant) → ∃ data,
    (alone t inputs (getTodayPhoto seoulDate userId) 0 w).result = .ok data ∧
      data.canRegister = available
  registering : ∀ (arguments : PhotoArguments) mock t inputs, (∀ k, (inputs k).now = instant) →
    (∀ k, (inputs k).Fresh w.db) → arguments.userId = userId →
    arguments.registeredDate = seoulDate instant →
    arguments.storageKey = PhotoUpload.keyOf arguments.userId arguments.photoId →
    w.db.photos.get? arguments.photoId = none → Uncarried arguments w.db →
      (available = true ↔ ∃ photo, (alone t inputs (createPhoto arguments mock) 0 w).result = .ok photo)

/-- What the screens say of the registration of another photo is true. -/
theorem availabilityTruthful {K : Type} [Field K] [LinearOrder K] [IsStrictOrderedRing K] [FloorRing K]
    {settings : Settings} {sqrt : ℚ → K} {users : Table User.id} {n : Nat} {clock : Time}
    {w : BackendWorld} {userId : UUID} {user : User}
    (serially : Serially settings sqrt users n clock w) (found : w.db.users.get? userId = some user)
    (active : user.status = .active) (onboarded : ¬ user.onboardingRequired)
    (seoulDate : Time → Date) (instant : Time) :
    ∃ available, ReportedAs available seoulDate userId instant w := by
  refine ⟨isAvailable (latest userId (seoulDate instant) (timedOut userId instant w.db)),?_,?_,?_⟩
  · intro t inputs at_
    have shown := alone_getHome t inputs seoulDate userId 0 w
    rw [at_,at_] at shown
    exact shown
  · intro t inputs at_
    have shown := alone_photosToday t inputs seoulDate userId 0 serially.inv
    rw [at_,at_] at shown
    exact shown
  · intro arguments mock t inputs at_ fresh own day named unused uncarried
    subst own
    rw [← day]
    have registration : Registration arguments mock inputs (inputs 2).now w
      (alone t inputs (createPhoto arguments mock) 0 w) := alone_createPhoto arguments mock
    rw [at_] at registration
    exact registration.available serially.inv serially.dated found active onboarded named unused
      uncarried fresh

namespace Sample

/-- The photo a user registered on day 0. -/
def registered : PhotoUpload := ⟨11,1,"checksum",0,false⟩

def afterUpload : BackendWorld :=
  (alone 0 (fun _ => input 5 100) (program settings Rat.sqrt (.createPhoto registered.arguments false))
    0 ⟨Db.empty users,[]⟩).world

theorem afterUpload_serially : Serially settings Rat.sqrt users 1 5 afterUpload := by
  refine .next (.launch 0) (by decide) (fun _ _ => ⟨by decide,le_rfl⟩) ?_
  intro arguments mock same
  cases same
  rfl

end Sample

theorem availabilityTruthful_afterUpload :
    ∃ available, ReportedAs available (fun _ => 0) 1 6 Sample.afterUpload := by
  have found : Sample.afterUpload.db.users.get? 1 =
      some ⟨1,some "1",none,some "first",none,none,false,.active,none⟩ := by rfl
  exact availabilityTruthful Sample.afterUpload_serially found rfl (by decide) (fun _ => 0) 6

end Dalm
