import Dalm.Writes
import Dalm.Relational.Alone

/-! A registration with nobody else at work: what it comes to, and the database it leaves. -/
namespace Dalm.HomeRepository
open Relational Txn

theorem id_timeOut (photo : Photo) : (timeOut photo).id = photo.id := rfl

/-- The database with the stale validations of a user timed out. -/
def timedOut (userId : UUID) (now : Time) (db : Db) : Db :=
  db.updatePhotos (fun id => (db.photos.get? id).any (isStale userId now)) timeOut id_timeOut

theorem mem_arrange {order ids : List UUID} {id : UUID} : id ∈ arrange order ids ↔ id ∈ ids := by
  unfold arrange
  split
  next perm => exact (List.isPerm_iff.mp perm).mem_iff
  next => exact Iff.rfl

section alone
variable {t n : Nat} {inputs : Nat → Input} {w : BackendWorld} {userId : UUID}

theorem any_rowsOf (cond : Photo → Bool) (order : List UUID) (db : Db) (id : UUID) :
    ((rowsOf RowKey.photo (fun _ photo => cond photo) db
        (arrange order ((db.photos.rows.filter cond).map Photo.id))).any fun row => row.1 = id) =
      (db.photos.get? id).any cond := by
  rw [Bool.eq_iff_iff,List.any_eq_true,Option.any_eq_true]
  constructor
  · rintro ⟨row,member,same⟩
    obtain ⟨other,_,taken⟩ := List.mem_filterMap.mp member
    obtain ⟨photo,found,rfl⟩ := Option.map_eq_some_iff.mp taken
    obtain ⟨present,meets⟩ := Option.filter_eq_some_iff.mp found
    exact ⟨photo,of_decide_eq_true same ▸ present,meets⟩
  · rintro ⟨photo,found,meets⟩
    have own := Table.key_of_get? found
    have listed : id ∈ arrange order ((db.photos.rows.filter cond).map Photo.id) :=
      mem_arrange.mpr (List.mem_map.mpr
        ⟨photo,List.mem_filter.mpr ⟨(Table.mem_rows_of_get? found).1,meets⟩,own⟩)
    refine ⟨⟨id,photo⟩,List.mem_filterMap.mpr ⟨id,listed,?_⟩,decide_eq_true rfl⟩
    exact Option.map_eq_some_iff.mpr ⟨photo,Option.filter_eq_some_iff.mpr ⟨found,meets⟩,rfl⟩

theorem modify_none {photos : Table Photo.id} {chosen : UUID → Bool} {assign : Photo → Photo}
    {keeps} (none_ : ∀ id, chosen id = false) : photos.modify chosen assign keeps = photos := by
  apply Table.ext
  simp [none_]

theorem alone_expireStaleValidations (t : Nat) (inputs : Nat → Input) (userId : UUID) (n : Nat)
    (w : BackendWorld) : ∃ committed m log, n < m ∧
    alone t inputs (expireStaleValidations userId) n w =
      ⟨.ok committed,m,⟨timedOut userId (inputs n).now w.db,log⟩⟩ := by
  let stale := arrange (inputs n).order
    ((w.db.photos.rows.filter (isStale userId (inputs n).now)).map Photo.id)
  let rows := rowsOf RowKey.photo (fun _ photo => isStale userId (inputs n).now photo) w.db stale
  have chosen : (fun id => rows.any fun row => row.1 = id) =
      fun id => (w.db.photos.get? id).any (isStale userId (inputs n).now) :=
    funext fun id => any_rowsOf _ _ _ id
  rw [expireStaleValidations,alone_supply,alone_query,alone_lockEach]
  by_cases nothing : rows = []
  · have same : timedOut userId (inputs n).now w.db = w.db := by
      unfold timedOut Db.updatePhotos
      rw [modify_none]
      intro id
      rw [← congrFun chosen id,nothing]
      rfl
    refine ⟨false,n + 1 + 1 + stale.length,w.log,by omega,?_⟩
    rw [if_pos nothing,alone_pure,same]
  · refine ⟨true,n + 1 + 1 + stale.length + 1,
      w.log ++ [(t,.validationsTimedOut (rows.map Sigma.fst))],by omega,?_⟩
    rw [if_neg nothing,alone_commitOr]
    unfold timedOut
    rw [← chosen]
    rfl

/-- A query for one row finds it, or finds two. -/
inductive Found (chosen : Photo → Bool) (taken : Exc) (photos : Table Photo.id) : Exc → Prop where
  | one {photo : Photo} (present : photo ∈ photos.rows) (picked : chosen photo) :
    Found chosen taken photos taken
  | several {photo other : Photo} (present : photo ∈ photos.rows ∧ other ∈ photos.rows)
      (picked : chosen photo ∧ chosen other) (apart : photo.id ≠ other.id) :
    Found chosen taken photos .multipleResultsFound

theorem Found.exists {chosen : Photo → Bool} {taken error : Exc} {photos : Table Photo.id}
    (found : Found chosen taken photos error) : ∃ photo ∈ photos.rows, chosen photo := by
  cases found with
  | one present picked => exact ⟨_,present,picked⟩
  | several present picked => exact ⟨_,present.1,picked.1⟩

/-- What a registration that runs alone comes to, where the stale validations are timed out
at `now`. The number is of the statement that reads the clock for the new photo. -/
inductive Registration (arguments : PhotoArguments) (mock : Bool) (inputs : Nat → Input) (now : Time)
    (w : BackendWorld) : Ended Db Event Exc Photo → Prop where
  | unfit {m : Nat} {error : Exc} (unfit : ∀ user, w.db.users.get? arguments.userId = some user →
      user.status = .active → user.onboardingRequired)
      (named : error = accountNotActive ∨ error = onboardingRequired) :
    Registration arguments mock inputs now w ⟨.error error,m,w⟩
  | refused {m : Nat} {error : Exc} {db : Db} {log : List (Nat × Event)}
      (expired : db = timedOut arguments.userId now w.db)
      (taken : Found (isActiveOn arguments.userId arguments.registeredDate) todayPhotoAlreadyExists
          db.photos error ∨
        Found (isDuplicate arguments.userId arguments.checksum) duplicatePhoto db.photos error) :
    Registration arguments mock inputs now w ⟨.error error,m,⟨db,log⟩⟩
  | conflict {j m : Nat} {user : User} {cleared : List UUID} {start : Time} {db : Db}
      {log : List (Nat × Event)} (expired : db = timedOut arguments.userId now w.db)
      (known : w.db.users.get? arguments.userId = some user)
      (free : ∀ photo ∈ db.photos.rows, ¬ isActiveOn arguments.userId arguments.registeredDate photo)
      (single : ∀ photo ∈ db.photos.rows, ¬ isDuplicate arguments.userId arguments.checksum photo)
      (releases : ∀ id, cleared.contains id =
        (db.photos.get? id).any (isHistorical arguments.userId arguments.checksum))
      (written : createWrites arguments mock cleared start (inputs j).now (inputs (j + 1)) db = none) :
    Registration arguments mock inputs now w ⟨.error photoConflict,m,⟨db,log⟩⟩
  | registered {j m : Nat} {user : User} {cleared : List UUID} {start : Time} {db db' : Db}
      {events : List Event} {log : List (Nat × Event)} (earlier : j < m)
      (expired : db = timedOut arguments.userId now w.db)
      (known : w.db.users.get? arguments.userId = some user) (active : user.status = .active)
      (onboarded : ¬ user.onboardingRequired)
      (free : ∀ photo ∈ db.photos.rows, ¬ isActiveOn arguments.userId arguments.registeredDate photo)
      (single : ∀ photo ∈ db.photos.rows, ¬ isDuplicate arguments.userId arguments.checksum photo)
      (releases : ∀ id, cleared.contains id =
        (db.photos.get? id).any (isHistorical arguments.userId arguments.checksum))
      (written : createWrites arguments mock cleared start (inputs j).now (inputs (j + 1)) db =
        some (db',events)) :
    Registration arguments mock inputs now w ⟨.ok (newPhoto arguments mock (inputs j).now),m,⟨db',log⟩⟩

theorem atMostOne_nil {taken : Exc} {rest : App Photo} : atMostOne [] taken rest = rest := rfl

/-- Where a row is listed, the rest is not reached. -/
theorem atMostOne_found {chosen : Photo → Bool} {photos : Table Photo.id} (taken : Exc) {rest : App Photo}
    (listed : (photos.rows.filter chosen).map Photo.id ≠ []) : ∃ error, Found chosen taken photos error ∧
      atMostOne ((photos.rows.filter chosen).map Photo.id) taken rest = throw error := by
  have distinct : ((photos.rows.filter chosen).map Photo.id).Nodup :=
    photos.distinct.sublist (List.filter_sublist.map Photo.id)
  have each : ∀ photo ∈ photos.rows.filter chosen, photo ∈ photos.rows ∧ chosen photo :=
    fun photo member => List.mem_filter.mp member
  match same : photos.rows.filter chosen with
  | [] => exact absurd (by rw [same]; rfl) listed
  | [photo] =>
    obtain ⟨present,picked⟩ := each photo (by simp [same])
    exact ⟨taken,.one present picked,rfl⟩
  | photo :: other :: _ =>
    obtain ⟨present,picked⟩ := each photo (by simp [same])
    obtain ⟨present',picked'⟩ := each other (by simp [same])
    rw [same,List.map_cons,List.map_cons,List.nodup_cons] at distinct
    refine ⟨.multipleResultsFound,.several ⟨present,present'⟩ ⟨picked,picked'⟩ fun equal => ?_,rfl⟩
    exact distinct.1 (by simp [equal])

theorem not_of_none {chosen : Photo → Bool} {photos : Table Photo.id}
    (none_ : (photos.rows.filter chosen).map Photo.id = []) : ∀ photo ∈ photos.rows, ¬ chosen photo := by
  intro photo present picked
  have inside := List.mem_map_of_mem (f := Photo.id) (List.mem_filter.mpr ⟨present,picked⟩)
  rw [none_] at inside
  cases inside

/-- The new row is what the registration answers. -/
theorem refreshed {arguments : PhotoArguments} {mock : Bool} {cleared : List UUID} {start now : Time}
    {ids : Input} {db db' : Db} {events : List Event}
    (written : createWrites arguments mock cleared start now ids db = some (db',events)) :
    db'.photos.get? arguments.photoId = some (newPhoto arguments mock now) := by
  obtain ⟨fresh,_,_,_,photos⟩ := createWrites_photos written
  rw [photos]
  exact Table.get?_insert_self fresh

private theorem alone_registerPhoto {arguments : PhotoArguments} {mock : Bool} {start now : Time}
    {user : User} {log : List (Nat × Event)} {db : Db}
    (expired : db = timedOut arguments.userId now w.db)
    (known : w.db.users.get? arguments.userId = some user) (active : user.status = .active)
    (onboarded : ¬ user.onboardingRequired)
    (free : ∀ photo ∈ db.photos.rows, ¬ isActiveOn arguments.userId arguments.registeredDate photo) :
    Registration arguments mock inputs now w
      (alone t inputs (registerPhoto arguments mock start) n ⟨db,log⟩) := by
  rw [registerPhoto,alone_supply,alone_query,alone_lockEach,alone_query]
  generalize reached : n + 1 + 1 + (arrange (inputs n).order ((db.photos.rows.filter
    (isHistorical arguments.userId arguments.checksum)).map Photo.id)).length + 1 = j
  generalize taken : rowsOf RowKey.photo (fun _ photo =>
    isHistorical arguments.userId arguments.checksum photo) db (arrange (inputs n).order
      ((db.photos.rows.filter (isHistorical arguments.userId arguments.checksum)).map Photo.id)) = rows
  by_cases alone_ : (db.photos.rows.filter
      (isDuplicate arguments.userId arguments.checksum)).map Photo.id = []
  · rw [alone_,atMostOne_nil,alone_supply,alone_commitOr]
    have releases : ∀ id, (rows.map Sigma.fst).contains id =
        (db.photos.get? id).any (isHistorical arguments.userId arguments.checksum) := by
      intro id
      rw [← any_rowsOf _ (inputs n).order db id,taken,List.contains_eq_any_beq,List.any_map]
      refine List.any_congr rfl fun row => ?_
      rw [Function.comp_apply,Bool.eq_iff_iff,beq_iff_eq,decide_eq_true_iff,eq_comm]
    cases made : createWrites arguments mock (rows.map Sigma.fst) start (inputs j).now
        (inputs (j + 1)) db with
    | none => exact .conflict expired known free (not_of_none alone_) releases made
    | some result =>
      obtain ⟨db',events⟩ := result
      dsimp only
      rw [alone_query,World.db_record,refreshed made]
      exact .registered (by omega) expired known active onboarded free (not_of_none alone_) releases made
  · obtain ⟨error,found,failed⟩ := atMostOne_found duplicatePhoto alone_
    rw [failed,alone_throw]
    exact .refused expired (.inr found)

theorem alone_createPhoto (arguments : PhotoArguments) (mock : Bool) :
    Registration arguments mock inputs (inputs (n + 2)).now w
      (alone t inputs (createPhoto arguments mock) n w) := by
  rw [createPhoto,alone_supply,alone_query]
  split
  next unfit =>
    refine .unfit (fun user found active => absurd unfit ?_) (.inl rfl)
    rw [found,Option.filter_some,if_pos (decide_eq_true active)]
    exact Option.some_ne_none user
  next user chosen =>
    obtain ⟨found,active⟩ := Option.filter_eq_some_iff.mp chosen
    split
    next nameless =>
      refine .unfit (fun other found' _ => ?_) (.inr rfl)
      cases Option.some.inj (found.symm.trans found')
      exact nameless
    next ready =>
      obtain ⟨committed,m,log,later,expired⟩ :=
        alone_expireStaleValidations t inputs arguments.userId (n + 1 + 1) w
      rw [alone_bind,expired]
      simp only [andThen]
      rw [alone_supply,alone_query]
      by_cases none_ : ((timedOut arguments.userId (inputs (n + 1 + 1)).now w.db).photos.rows.filter
        (isActiveOn arguments.userId arguments.registeredDate)).map Photo.id = []
      · rw [none_,atMostOne_nil]
        exact alone_registerPhoto rfl found (of_decide_eq_true active) ready (not_of_none none_)
      · obtain ⟨error,listed,failed⟩ := atMostOne_found todayPhotoAlreadyExists none_
        rw [failed,alone_throw]
        exact .refused rfl (.inl listed)

end alone
end Dalm.HomeRepository
