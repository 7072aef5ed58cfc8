import Dalm.Moments
import Dalm.Notifications
import Dalm.Reachable
import Dalm.Relational.Conduct

/-! The time something was first looked at. Each of the calls that set it reads the row, and sets the
time where it finds none; nothing but the UPDATE of all notifications of a user looks again. -/
namespace Dalm
open Relational Txn

inductive ReadRequest where
  | markMatchViewed (userId matchId : UUID)
  | markRead (userId notificationId : UUID)
  | markAllRead (userId : UUID)
  | readPostcard (userId postcardId : UUID)

/-- The calls, with the time each answers. -/
def readProgram : ReadRequest → App (Option Time)
  | .markMatchViewed userId matchId => HomeRepository.markMatchViewed userId matchId
  | .markRead userId notificationId => do
    let row ← NotificationRepository.markRead userId notificationId
    return row.readAt
  | .markAllRead userId => do
    NotificationRepository.markAllRead userId
    return none
  | .readPostcard userId postcardId => do
    let row ← PostcardRepository.markRead userId postcardId
    return row.readAt

abbrev ReadSystem := System Db RowKey Input Event Exc ReadRequest (Option Time)

/-- `viewed_at` of a participant, `read_at` of a notification, `read_at` of a postcard. -/
inductive ReadColumn where
  | viewed (matchId userId : UUID)
  | notification (id : UUID)
  | postcard (id : UUID)
deriving DecidableEq

/-- What the column says, where there is a row. -/
def ReadColumn.value (db : Db) : ReadColumn → Option (Option Time)
  | .viewed matchId userId => (db.participants.get? (matchId,userId)).map MatchParticipant.viewedAt
  | .notification id => (db.notifications.get? id).map Notification.readAt
  | .postcard id => (db.postcards.get? id).map Postcard.readAt

/-- The column a call reads before it writes it. -/
def ReadRequest.column? : ReadRequest → Option ReadColumn
  | .markMatchViewed userId matchId => some (.viewed matchId userId)
  | .markRead _ notificationId => some (.notification notificationId)
  | .markAllRead _ => none
  | .readPostcard _ postcardId => some (.postcard postcardId)

/-- A call is at its COMMIT, and its column was set since it read it. -/
def Overtaken (s : ReadSystem) (action : Action Input Exc ReadRequest) : Prop :=
  ∃ t i r writes next column time, action = .exec t i ∧ s.session t = some ⟨r,.inl (.commit writes next)⟩ ∧
    r.column? = some column ∧ column.value s.db = some (some time)

def Timely (s : ReadSystem) (action : Action Input Exc ReadRequest) (_ : ReadSystem) : Prop :=
  ¬ Overtaken s action

/-- A column says what it said, or NULL became a time. -/
def Settles (before after : Option (Option Time)) : Prop :=
  after = before ∨ ∃ time, before = some none ∧ after = some (some time)

section settles
variable {a b c : Option (Option Time)} {time : Time}

theorem Settles.trans (first : Settles a b) (second : Settles b c) : Settles a c := by
  rcases first with rfl | ⟨time,rfl,rfl⟩
  · exact second
  · rcases second with rfl | ⟨_,other,_⟩
    · exact .inr ⟨time,rfl,rfl⟩
    · cases other

theorem Settles.set (settles : Settles (some (some time)) b) : b = some (some time) := by
  rcases settles with same | ⟨_,other,_⟩
  · exact same
  · cases other

end settles

section writes
variable {db : Db} {column : ReadColumn} {now : Time}

/-- The one column a commit sets says the time; the others say what they said. -/
def SetsOnly (own : Option ReadColumn) (db db' : Db) : Prop :=
  ∀ column : ReadColumn, Settles (column.value db) (column.value db') ∨
    (own = some column ∧ ∃ time, column.value db' = (column.value db).map fun _ => some time)

theorem value_modify {ρ κ : Type} [DecidableEq κ] {key : ρ → κ} (t : Table key) {chosen : κ → Bool} {assign : ρ → ρ}
    (keeps : ∀ row, key (assign row) = key row) {read : ρ → Option Time} (sets : ∀ row, read (assign row) = some now)
    (k : κ) : ((t.modify chosen assign keeps).get? k).map read =
      if chosen k then ((t.get? k).map read).map fun _ => some now else (t.get? k).map read := by
  rw [Table.get?_modify]
  split
  · rw [Option.map_map,Option.map_map]
    exact congrArg (fun f => (t.get? k).map f) (funext sets)
  · rfl

theorem viewed_value (m u m' u' : UUID) : ReadColumn.value (HomeRepository.updateParticipant m u
      (fun row => {row with viewedAt := some now}) (fun _ => rfl) db) (.viewed m' u') =
    if (m',u') = (m,u) then (ReadColumn.value db (.viewed m' u')).map fun _ => some now
      else ReadColumn.value db (.viewed m' u') := by
  rw [ReadColumn.value,HomeRepository.updateParticipant,value_modify db.participants _ fun _ => rfl]
  simp [ReadColumn.value]

theorem notification_value (chosen : UUID → Bool) (id : UUID) :
    ReadColumn.value (NotificationRepository.readWrites chosen now db) (.notification id) =
      if chosen id then (ReadColumn.value db (.notification id)).map fun _ => some now
      else ReadColumn.value db (.notification id) := by
  rw [ReadColumn.value,NotificationRepository.readWrites,value_modify db.notifications _ fun _ => rfl]
  rfl

theorem postcard_value (id other : UUID) :
    ReadColumn.value (db.updatePostcard id fun row => {row with readAt := some now}) (.postcard other) =
      if other = id then (ReadColumn.value db (.postcard other)).map fun _ => some now
      else ReadColumn.value db (.postcard other) := by
  rw [ReadColumn.value,Db.updatePostcard,value_modify db.postcards _ fun _ => rfl]
  simp [ReadColumn.value]

theorem setsOnly_viewed (m u : UUID) (now : Time) : SetsOnly (some (.viewed m u)) db
    (HomeRepository.updateParticipant m u (fun row => {row with viewedAt := some now}) (fun _ => rfl) db) := by
  intro column
  cases column with
  | viewed m' u' =>
    rw [viewed_value]
    split
    next same =>
      cases same
      exact .inr ⟨rfl,now,rfl⟩
    next => exact .inl (.inl rfl)
  | notification | postcard => exact .inl (.inl rfl)

theorem setsOnly_read (id : UUID) (now : Time) : SetsOnly (some (.notification id)) db
    (NotificationRepository.readWrites (fun other => other = id) now db) := by
  intro column
  cases column with
  | notification other =>
    rw [notification_value]
    split
    next same =>
      cases of_decide_eq_true same
      exact .inr ⟨rfl,now,rfl⟩
    next => exact .inl (.inl rfl)
  | viewed | postcard => exact .inl (.inl rfl)

theorem setsOnly_postcard (id : UUID) (now : Time) : SetsOnly (some (.postcard id)) db
    (db.updatePostcard id fun row => {row with readAt := some now}) := by
  intro column
  cases column with
  | postcard other =>
    rw [postcard_value]
    split
    next same => exact .inr ⟨same ▸ rfl,now,rfl⟩
    next => exact .inl (.inl rfl)
  | viewed | notification => exact .inl (.inl rfl)

/-- The UPDATE of all notifications of a user looks at each again as it sets it. -/
theorem setsOnly_all {unread : List UUID} (now : Time) (null : ∀ id ∈ unread, ∃ row ∈ db.notifications.rows,
    row.id = id ∧ row.readAt = none) : SetsOnly none db
    (NotificationRepository.readWrites (fun id => unread.contains id) now db) := by
  intro column
  cases column with
  | notification id =>
    rw [notification_value]
    split
    next chosen =>
      obtain ⟨row,there,rfl,null⟩ := null id (List.contains_iff_mem.mp chosen)
      have before : ReadColumn.value db (.notification row.id) = some none := by
        rw [ReadColumn.value,Table.get?_of_mem there,Option.map_some,null]
      exact .inl (.inr ⟨now,before,congrArg (Option.map fun _ => some now) before⟩)
    next => exact .inl (.inl rfl)
  | viewed | postcard => exact .inl (.inl rfl)

end writes

section programs
open NotificationRepository PostcardRepository HomeRepository

theorem keeps_get {K : Db → Db → Prop} (userId postcardId : UUID) :
    (PostcardRepository.get userId postcardId).Keeps K :=
  keeps_bind (keeps_query _) fun row => by cases row <;> trivial

/-- Whatever a commit of a call finds, it sets the column of the call alone. -/
theorem readProgram_keeps (r : ReadRequest) : (readProgram r).Keeps (SetsOnly r.column?) := by
  cases r with
  | markMatchViewed userId matchId =>
    refine keeps_bind (keeps_query _) fun found => ?_
    cases found with
    | none => trivial
    | some row =>
      cases seen : row.viewedAt with
      | some time =>
        dsimp only
        rw [seen]
        trivial
      | none =>
        dsimp only
        rw [seen]
        refine keeps_bind keeps_supply fun clock => keeps_bind (keeps_selectForUpdate _) fun _ =>
          keeps_bind (keeps_commitOr fun i db db' events written => ?_) fun _ => trivial
        cases written
        exact setsOnly_viewed matchId userId clock.now
  | markRead userId notificationId =>
    refine keeps_bind (keeps_bind (keeps_query _) fun found => ?_) fun _ => trivial
    cases found with
    | none => trivial
    | some row =>
      dsimp only
      split
      · refine keeps_bind keeps_supply fun clock =>
          keeps_bind (keeps_commitOr fun i db db' events written => ?_) fun _ => trivial
        cases written
        exact setsOnly_read notificationId clock.now
      · trivial
  | markAllRead userId =>
    refine keeps_bind (keeps_bind keeps_supply fun clock =>
      keeps_bind (keeps_commitOr fun i db db' events written => ?_) fun _ => trivial) fun _ => trivial
    cases written
    refine setsOnly_all clock.now fun id member => ?_
    obtain ⟨row,there,same⟩ := List.mem_map.mp member
    obtain ⟨present,chosen⟩ := List.mem_filter.mp there
    exact ⟨row,present,same,(of_decide_eq_true chosen).2.2⟩
  | readPostcard userId postcardId =>
    refine keeps_bind (keeps_bind (keeps_query _) fun found => ?_) fun _ => trivial
    split
    · trivial
    · split
      · refine keeps_bind keeps_supply fun clock => keeps_bind (keeps_selectForUpdate _) fun _ =>
          keeps_bind (keeps_commitOr fun i db db' events written => ?_) fun _ => keeps_get userId postcardId
        cases written
        exact setsOnly_postcard postcardId clock.now
      · exact keeps_get userId postcardId

/-- What the others do to the columns. -/
def Onward (w w' : BackendWorld) : Prop :=
  ∀ column : ReadColumn, Settles (column.value w.db) (column.value w'.db)

theorem onward_refl (w : BackendWorld) : Onward w w := fun _ => .inl rfl

theorem onward_trans (a b c : BackendWorld) (first : Onward a b) (second : Onward b c) : Onward a c :=
  fun column => (first column).trans (second column)

/-- A time that was answered is what the column of the call says. -/
def Answered (r : ReadRequest) (x : Except Exc (Option Time)) (w : BackendWorld) : Prop :=
  ∀ time column, x = .ok (some time) → r.column? = some column → column.value w.db = some (some time)

theorem Answered.later {r : ReadRequest} (x : Except Exc (Option Time)) (w w' : BackendWorld)
    (answered : Answered r x w) (later : Onward w w') : Answered r x w' := by
  intro time column same own
  have settles := later column
  rw [answered time column same own] at settles
  exact settles.set

theorem answered_error {r : ReadRequest} {error : Exc} {w : BackendWorld} : Answered r (.error error) w :=
  fun _ _ same => nomatch same

theorem answered_none {r : ReadRequest} {w : BackendWorld} : Answered r (.ok none) w :=
  fun _ _ same => nomatch same

/-- The column of a call that may commit is not set. -/
def Unset (r : ReadRequest) (w : BackendWorld) (_ : Option (Db × List Event)) : Prop :=
  ∀ column time, r.column? = some column → column.value w.db ≠ some (some time)

section conducts
variable {t : Nat} {w : BackendWorld} {r : ReadRequest} {column : ReadColumn}

/-- What is answered is what the column says when it is read. -/
theorem conducts_answer {answer : Option Time} (column : ReadColumn) (own : r.column? = some column)
    (value : ∀ time, answer = some time → column.value w.db = some (some time)) :
    (pure answer : App (Option Time)).Conducts Onward (Unset r) t (Answered r) w := by
  refine fun w' later => Answered.later _ w w' (fun time column' same own' => ?_) later
  cases own.symm.trans own'
  exact value time (Except.ok.inj same)

theorem conducts_get {userId postcardId : UUID} : (PostcardRepository.get userId postcardId).Conducts Onward
    (Unset (.readPostcard userId postcardId)) t (Onto Onward (Unset (.readPostcard userId postcardId)) t
      (fun row => (pure row.readAt : App (Option Time))) (Answered (.readPostcard userId postcardId))) w := by
  refine conducts_query fun w₁ _ => ?_
  cases found : ((w₁.db.postcards.get? postcardId).filter (isVisible userId)).bind (rowOf w₁.db userId) with
  | none => exact fun _ _ => answered_error
  | some row =>
    refine fun w₂ step => Conducts.later onward_trans (conducts_answer (.postcard postcardId) rfl fun time same => ?_) step
    obtain ⟨card,stored,joined⟩ := Option.bind_eq_some_iff.mp found
    have there := (Option.filter_eq_some_iff.mp stored).1
    have read : row.readAt = card.readAt := by
      obtain ⟨_,_,_,_,_,_,_,_,rfl⟩ := rowOf_eq_some.mp joined
      rfl
    rw [ReadColumn.value,there,Option.map_some,← read,same]

theorem set_value {w w' : BackendWorld} {after : Option (Option Time)} {now : Time} (null : column.value w.db = some none)
    (later : Onward w w') (value : after = (column.value w'.db).map fun _ => some now) : after = some (some now) := by
  rcases later column with same | ⟨time,_,same⟩
  · rw [value,same,null]
    rfl
  · rw [value,same]
    rfl

theorem readProgram_conducts (r : ReadRequest) (t : Nat) (w : BackendWorld) :
    (readProgram r).Conducts Onward (Unset r) t (Answered r) w := by
  cases r with
  | markMatchViewed userId matchId =>
    refine conducts_query fun w₁ _ => ?_
    cases found : w₁.db.participants.get? (matchId,userId) with
    | none => exact fun _ _ => answered_none
    | some row =>
      cases seen : row.viewedAt with
      | some time =>
        dsimp only
        rw [seen]
        refine conducts_answer (.viewed matchId userId) rfl fun time' same => ?_
        rw [ReadColumn.value,found,Option.map_some,seen,same]
      | none =>
        dsimp only
        rw [seen]
        refine conducts_supply fun clock w₂ step₂ => conducts_selectForUpdate fun _ w₃ step₃ => conducts_commitOr
          (fun i w₄ db events step₄ _ written => ?_) fun _ _ _ _ _ _ _ => answered_error
        cases written
        refine conducts_answer (.viewed matchId userId) rfl fun time same => ?_
        cases same
        have null : ReadColumn.value w₁.db (.viewed matchId userId) = some none := by
          rw [ReadColumn.value,found,Option.map_some,seen]
        refine set_value null (onward_trans _ _ _ (onward_trans _ _ _ step₂ step₃) step₄) ?_
        rw [World.db_record,viewed_value,if_pos rfl]
  | markRead userId notificationId =>
    refine conducts_bind onward_refl (conducts_query fun w₁ _ => ?_)
    cases found : (w₁.db.notifications.get? notificationId).filter (fun row => row.userId = userId ∧
        row.deletedAt = none) with
    | none => exact fun _ _ => answered_error
    | some row =>
      have value : ReadColumn.value w₁.db (.notification notificationId) = some row.readAt := by
        rw [ReadColumn.value,(Option.filter_eq_some_iff.mp found).1,Option.map_some]
      dsimp only
      split
      next null =>
        refine conducts_supply fun clock w₂ step₂ => conducts_commitOr
          (fun i w₃ db events step₃ _ written => ?_) fun _ _ _ _ _ _ _ => answered_error
        cases written
        refine fun w₄ step => Conducts.later onward_trans
          (conducts_answer (.notification notificationId) rfl fun time same => ?_) step
        cases same
        refine set_value (value.trans (congrArg some null)) (onward_trans _ _ _ step₂ step₃) ?_
        rw [World.db_record,notification_value,decide_eq_true rfl,if_pos rfl]
      next =>
        refine fun w₂ step => Conducts.later onward_trans
          (conducts_answer (.notification notificationId) rfl fun time same => ?_) step
        rw [value,same]
  | markAllRead userId =>
    refine conducts_bind onward_refl (conducts_supply fun clock w₁ _ => conducts_commitOr
      (fun i w₂ db events _ _ _ => ?_) fun _ _ _ _ _ _ _ => answered_error)
    exact fun _ _ _ _ => answered_none
  | readPostcard userId postcardId =>
    refine conducts_bind onward_refl (conducts_query fun w₁ _ => ?_)
    split
    next => exact fun _ _ => answered_error
    next =>
      split
      next =>
        exact conducts_supply fun clock w₂ _ => conducts_selectForUpdate fun _ w₃ _ => conducts_commitOr
          (fun _ _ _ _ _ _ _ => conducts_get) fun _ _ _ _ _ _ _ => answered_error
      next => exact conducts_get

end conducts
end programs

section runs
variable {db : Db} {s u : ReadSystem}

/-- A step that overtakes no other call sets only what is NULL. -/
theorem onward_step {a b : ReadSystem} {action : Action Input Exc ReadRequest}
    (runs : Runs readProgram Timely (System.initial db) a) (taken : a.step readProgram action = some b)
    (timely : Timely a action b) : Onward a.world b.world := by
  cases Reach.taken_of_step taken with
  | start => exact onward_refl _
  | die => exact onward_refl _
  | @exec t i r p store state running ran =>
    have keeps := Reach.keeps runs (fun _ => rfl) (readProgram_keeps r) running
    intro column
    change Settles (column.value a.store.world.db) (column.value store.world.db)
    rcases (keeps.exec ran).2 with same | ⟨writes,next,_,rfl,_,sets⟩
    · exact .inl (congrArg (fun db => column.value db) same)
    · rcases sets column with settles | ⟨own,time,value⟩
      · exact settles
      · rw [value]
        cases before : column.value a.store.world.db with
        | none => exact .inl rfl
        | some found =>
          cases found with
          | none => exact .inr ⟨time,rfl,rfl⟩
          | some other =>
            exact absurd ⟨t,i,r,writes,next,column,other,rfl,running,own,before⟩ timely

theorem onward_runs (before : Runs readProgram Timely (System.initial db) s) (on : Runs readProgram Timely s u) :
    Onward s.world u.world := by
  induction on with
  | refl => exact onward_refl _
  | tail on link ih =>
    obtain ⟨action,taken,timely⟩ := link
    exact onward_trans _ _ _ ih (onward_step (before.trans on) taken timely)

theorem answered_runs {t : Nat} {r : ReadRequest} {x : Except Exc (Option Time)}
    (runs : Runs readProgram Timely (System.initial db) s) (ended : s.session t = some ⟨r,.inr x⟩) :
    Answered r x s.world := by
  refine Reach.conducting (Q := Answered r) runs (fun _ => rfl) onward_refl onward_trans
    (fun a _ _ => readProgram_conducts r t a.world) ?_ ?_ (fun _ _ _ _ _ _ _ => answered_error)
    (fun x a b answered later => answered.later x a b later) ended
  · intro a i b writes next before timely running column time own set_
    exact timely ⟨t,i,r,writes,next,column,time,rfl,running,own,set_⟩
  · exact fun a action b before taken timely _ => onward_step before taken timely

/-- Where no call commits its time over another's, a time that is set stays, and every call that answers a
time answers that one. -/
theorem firstReads (before : Runs readProgram Timely (System.initial db) s) (on : Runs readProgram Timely s u) :
    (∀ (column : ReadColumn) (time : Time), column.value s.db = some (some time) →
      column.value u.db = some (some time)) ∧
    ∀ t r column time, s.session t = some ⟨r,.inr (.ok (some time))⟩ → r.column? = some column →
      column.value u.db = some (some time) := by
  have stays : ∀ (column : ReadColumn) (time : Time), column.value s.db = some (some time) →
      column.value u.db = some (some time) := by
    intro column time set_
    have settles := onward_runs before on column
    change Settles (column.value s.db) (column.value u.db) at settles
    rw [set_] at settles
    exact settles.set
  exact ⟨stays,fun t r column time ended own => stays column time (answered_runs before ended time column rfl own)⟩

end runs

namespace Sample

/-- Whether a step is no COMMIT of a call whose column is set. -/
def isTimely (s : ReadSystem) : Action Input Exc ReadRequest → Bool
  | .exec t _ =>
    match s.session t with
    | some ⟨r,.inl (.commit _ _)⟩ => r.column?.all fun column => (column.value s.db).all Option.isNone
    | _ => true
  | _ => true

theorem timely_of {s u : ReadSystem} {action : Action Input Exc ReadRequest}
    (passes : isTimely s action = true) : Timely s action u := by
  rintro ⟨t,i,r,writes,next,column,time,rfl,running,own,set_⟩
  simp [isTimely,running,own,set_] at passes

/-- Looks of user 1 at match 300: sessions that start and take `n` statements. -/
def looks (t n : Nat) (now : Time) : List (Action Input Exc ReadRequest) :=
  .start t (.markMatchViewed 1 300) :: List.replicate n (.exec t (input now 0))

def viewed (s : ReadSystem) (time : Time) : Bool :=
  decide ((ReadColumn.viewed 300 1).value s.db = some (some time))

/-- Two looks, one after the other. -/
def looksTwice (db : Db) : Bool :=
  ((System.initial db).runWhile readProgram (fun s action _ => isTimely s action) (looks 1 5 5)).any fun s =>
    viewed s 5 && (s.runWhile readProgram (fun s action _ => isTimely s action) (looks 2 2 6)).isSome

/-- Two looks that both read the row before either commits. -/
def looksAtOnce (db : Db) : Bool :=
  ((System.initial db).run readProgram (looks 1 1 5 ++ looks 2 1 6 ++ List.replicate 4 (.exec 1 (input 5 0)))).any
    fun s => viewed s 5 && (s.run readProgram (List.replicate 4 (.exec 2 (input 6 0)))).any fun u => viewed u 6

end Sample

theorem firstReads_twice : ∃ db : Db, ∃ s u : ReadSystem, Runs readProgram Timely (System.initial db) s ∧
    Runs readProgram Timely s u ∧ (ReadColumn.viewed 300 1).value s.db = some (some 5) ∧
    (ReadColumn.viewed 300 1).value u.db = some (some 5) := by
  obtain ⟨b,_,_,passed⟩ := Sample.reached Sample.matched (fun b => Sample.looksTwice b.db) (by decide +kernel)
  obtain ⟨s,ran,passed⟩ := (Option.any_eq_true _ _).mp passed
  obtain ⟨first,more⟩ := (Bool.and_eq_true _ _).mp passed
  obtain ⟨u,on⟩ := Option.isSome_iff_exists.mp more
  have before := Reach.runs_of_runWhile (R := Timely) (fun _ _ _ _ passes => Sample.timely_of passes) ran
  have after := Reach.runs_of_runWhile (R := Timely) (fun _ _ _ _ passes => Sample.timely_of passes) on
  have set_ := of_decide_eq_true first
  exact ⟨b.db,s,u,before,after,set_,(firstReads before after).1 _ 5 set_⟩

/-- Two calls that overlap: the second commits its time over the first one's. -/
theorem firstReads_overlapping : ¬ ∀ b : Backend, Reachable Sample.settings Rat.sqrt Sample.users b →
    ∀ s u : ReadSystem, Reach readProgram Discipline.none (System.initial b.db) s →
      Reach readProgram Discipline.none s u → ∀ (column : ReadColumn) (time : Time),
      column.value s.db = some (some time) → column.value u.db = some (some time) := by
  intro claim
  obtain ⟨b,_,reachable,passed⟩ := Sample.reached Sample.matched (fun b => Sample.looksAtOnce b.db) (by decide +kernel)
  obtain ⟨s,ran,passed⟩ := (Option.any_eq_true _ _).mp passed
  obtain ⟨first,more⟩ := (Bool.and_eq_true _ _).mp passed
  obtain ⟨u,on,second⟩ := (Option.any_eq_true _ _).mp more
  have stays := claim b reachable s u (Reach.of_run ran) (Reach.of_run on) (.viewed 300 1) 5 (of_decide_eq_true first)
  have changed := of_decide_eq_true second
  rw [stays] at changed
  exact absurd changed (by decide)

end Dalm
