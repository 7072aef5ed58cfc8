import Dalm.Preferences
import Dalm.Relational.Cells
import Dalm.UserRules

/-! The preferences as atomic changes: who a row answers to by the history, and what a
change makes of a device or a flag. -/
namespace Dalm
open Relational NotificationPreferenceRepository
open UserRepository (flushed)

def PreferenceDb.deviceOf (db : PreferenceDb) (token : PushToken) : Option DeviceToken :=
  db.deviceTokens.rows.find? fun row => row.token = token

/-- A column of the row a token has, and what its registrations ask for. -/
def deviceCell {V : Type} (column : DeviceToken → V) (asked : UUID → Platform → V) (token : PushToken) :
    Cell PreferenceDb PreferenceEvent V where
  view db := (db.deviceOf token).map column
  asked
    | .deviceRegistered userId other platform => if other = token then some (asked userId platform) else none
    | _ => none

abbrev ownerCell : PushToken → Cell PreferenceDb PreferenceEvent UUID :=
  deviceCell DeviceToken.userId fun userId _ => userId

abbrev platformCell : PushToken → Cell PreferenceDb PreferenceEvent Platform :=
  deviceCell DeviceToken.platform fun _ platform => platform

/-- A flag of a user, and what the updates that name it ask for. -/
def flagCell (userId : UUID) (name : SettingName) : Cell PreferenceDb PreferenceEvent Bool where
  view db := (db.settings.get? userId).map fun row => row.enabled name
  asked
    | .settingsUpdated other request => if other = userId then request.values name else none
    | _ => none

theorem flushed_cases {α : Type} [DecidableEq α] (loaded new current : α) :
    flushed loaded new current = current ∨ flushed loaded new current = new := by
  unfold flushed
  split
  · exact .inl rfl
  · exact .inr rfl

/-- What a commit or a marked SELECT of a request may be. -/
inductive PreferenceChange (r : PreferenceRequest) (w : PreferenceWorld) :
    PreferenceDb → List PreferenceEvent → Prop where
  | deviceSelected {token : PushToken} : PreferenceChange r w w.db [.deviceSelected token]
  | settingsSelected {userId : UUID} : PreferenceChange r w w.db [.settingsSelected userId]
  | deviceInserted {userId id : UUID} {request : DeviceTokenRequest} {token : PushToken} {now : Time}
      {db : PreferenceDb} {events : List PreferenceEvent} (asked : r = .registerDeviceToken userId request)
      (given : request.pushToken = some token)
      (written : insertDevice ⟨id,userId,token,request.platform,now⟩ w.db = some (db,events)) :
    PreferenceChange r w db events
  | deviceUpdated {userId : UUID} {request : DeviceTokenRequest} {item row : DeviceToken} {now : Time}
      {db : PreferenceDb} {events : List PreferenceEvent} (asked : r = .registerDeviceToken userId request)
      (given : request.pushToken = some item.token)
      (present : w.db.deviceTokens.get? item.id = some row) (same : row.token = item.token)
      (written : updateDevice item userId request.platform now w.db = some (db,events)) :
    PreferenceChange r w db events
  | settingsInserted {userId : UUID} {db : PreferenceDb} {events : List PreferenceEvent}
      (written : insertSettings userId w.db = some (db,events)) : PreferenceChange r w db events
  | settingsUpdated {request : UpdateNotificationSettingsRequest} {loaded : NotificationSetting}
      {db : PreferenceDb} {events : List PreferenceEvent}
      (asked : r = .updateNotificationSettings loaded.userId request)
      (written : writeSettings loaded request w.db = some (db,events)) : PreferenceChange r w db events
  | user {registry : Registry} {events : List UserEvent}
      (written : UserRepository.Writes w.db.registry registry events) :
    PreferenceChange r w {w.db with registry := registry} (events.map .user)

section written
variable {db db' : PreferenceDb} {events : List PreferenceEvent} {device item row : DeviceToken} {userId : UUID}
  {platform : Platform} {now : Time} {loaded : NotificationSetting} {request : UpdateNotificationSettingsRequest}

theorem insertDevice_eq (written : insertDevice device db = some (db',events)) :
    db.knows device.userId ∧ (∀ row ∈ db.deviceTokens.rows, row.token ≠ device.token) ∧
      events = [.deviceRegistered device.userId device.token device.platform] ∧
      ∃ fresh, db' = {db with deviceTokens := db.deviceTokens.insert device fresh} := by
  unfold insertDevice at written
  split at written
  next allowed =>
    obtain ⟨rows,inserted,same⟩ := Option.map_eq_some_iff.mp written
    obtain ⟨fresh,rfl⟩ := Table.insert?_eq_some.mp inserted
    cases same
    exact ⟨allowed.1,fun row member => by simpa using List.all_eq_true.mp allowed.2 row member,rfl,fresh,rfl⟩
  next => cases written

theorem updateDevice_eq (written : updateDevice item userId platform now db = some (db',events)) :
    (userId = item.userId ∨ db.knows userId) ∧ events = [.deviceRegistered userId item.token platform] ∧
      db' = {db with
        deviceTokens := db.deviceTokens.modify (fun id => id = item.id) (reassign item userId platform now)
          (reassign_id item userId platform now)} := by
  unfold updateDevice at written
  split at written
  next allowed =>
    cases written
    exact ⟨allowed,rfl,rfl⟩
  next => cases written

theorem insertSettings_eq (written : insertSettings userId db = some (db',events)) :
    db.knows userId ∧ events = [.settingsCreated userId] ∧ ∃ fresh,
      db' = {db with settings := db.settings.insert ⟨userId,true,true,true,true,true⟩ fresh} := by
  unfold insertSettings at written
  split at written
  next known =>
    obtain ⟨rows,inserted,same⟩ := Option.map_eq_some_iff.mp written
    obtain ⟨fresh,rfl⟩ := Table.insert?_eq_some.mp inserted
    cases same
    exact ⟨known,rfl,fresh,rfl⟩
  next => cases written

theorem deviceOf_inserted (fresh : ∀ row ∈ db.deviceTokens.rows, row.token ≠ device.token)
    {unused : db.deviceTokens.get? device.id = none} {token : PushToken} :
    ({db with deviceTokens := db.deviceTokens.insert device unused} : PreferenceDb).deviceOf token =
      if token = device.token then some device else db.deviceOf token := by
  unfold PreferenceDb.deviceOf
  rw [Table.rows_insert,List.find?_append]
  split
  next same =>
    subst same
    rw [List.find?_eq_none.mpr fun row member => by simpa using fresh row member]
    simp
  next different => simp [Ne.symm different]

/-- The UPDATE reaches the row of its token and no other. -/
theorem deviceOf_updated
    (unique : ∀ d ∈ db.deviceTokens.rows, ∀ d' ∈ db.deviceTokens.rows, d.token = d'.token → d = d')
    (present : db.deviceTokens.get? item.id = some row) (same : row.token = item.token) {token : PushToken} :
    ({db with
      deviceTokens := db.deviceTokens.modify (fun id => id = item.id) (reassign item userId platform now)
        (reassign_id item userId platform now)} : PreferenceDb).deviceOf token =
        if token = item.token then (db.deviceOf token).map (reassign item userId platform now)
        else db.deviceOf token := by
  have own : row.id = item.id := Table.key_of_get? present
  have tokens : ((fun d : DeviceToken => decide (d.token = token)) ∘ fun d => if d.id = item.id then
      reassign item userId platform now d else d) = fun d => decide (d.token = token) := by
    funext d
    simp only [Function.comp]
    split <;> rfl
  unfold PreferenceDb.deviceOf
  simp only [Table.rows_modify,decide_eq_true_eq,List.find?_map]
  rw [tokens]
  cases found : db.deviceTokens.rows.find? fun d => d.token = token with
  | none => simp
  | some d =>
    have named : d.token = token := by simpa using List.find?_some found
    split
    next here =>
      have one : d = row := unique d (List.mem_of_find?_eq_some found) row (Table.mem_rows_of_get? present).1
        (by rw [named,here,same])
      simp [one,own]
    next elsewhere =>
      have apart : d.id ≠ item.id := fun equal => elsewhere (by
        have one := Table.get?_of_mem (List.mem_of_find?_eq_some found)
        rw [equal,present] at one
        rw [← named,← Option.some.inj one,same])
      simp [apart]

end written

section invariant
variable {r : PreferenceRequest} {t : Nat} {w : PreferenceWorld} {db db' : PreferenceDb}
  {events : List PreferenceEvent} {log more : List (Nat × PreferenceEvent)}

/-- The owner of a device is a user, and he and the platform are what registrations of the token that
were committed asked for. -/
structure DeviceToken.Backed (device : DeviceToken) (db : PreferenceDb) (log : List (Nat × PreferenceEvent)) :
    Prop where
  known : db.knows device.userId
  owner : ∃ v platform, (v,.deviceRegistered device.userId device.token platform) ∈ log
  platform : ∃ v userId, (v,.deviceRegistered userId device.token device.platform) ∈ log

/-- The flags of a user that are off were asked off by updates of his that were committed. -/
structure NotificationSetting.Backed (row : NotificationSetting) (db : PreferenceDb)
    (log : List (Nat × PreferenceEvent)) : Prop where
  known : db.knows row.userId
  off : ∀ name, row.enabled name = false →
    ∃ v request, (v,.settingsUpdated row.userId request) ∈ log ∧ request.values name = some false

structure PreferenceInv (w : PreferenceWorld) : Prop where
  unique : ∀ d ∈ w.db.deviceTokens.rows, ∀ d' ∈ w.db.deviceTokens.rows, d.token = d'.token → d = d'
  devices : ∀ d ∈ w.db.deviceTokens.rows, d.Backed w.db w.log
  settings : ∀ row ∈ w.db.settings.rows, row.Backed w.db w.log

theorem DeviceToken.Backed.later {device : DeviceToken} (backed : device.Backed db log)
    (known : ∀ userId, db.knows userId → db'.knows userId) : device.Backed db' (log ++ more) := by
  obtain ⟨v,platform,one⟩ := backed.owner
  obtain ⟨u,userId,two⟩ := backed.platform
  exact ⟨known _ backed.known,⟨v,platform,List.mem_append_left _ one⟩,⟨u,userId,List.mem_append_left _ two⟩⟩

theorem NotificationSetting.Backed.later {row : NotificationSetting} (backed : row.Backed db log)
    (known : ∀ userId, db.knows userId → db'.knows userId) : row.Backed db' (log ++ more) := by
  refine ⟨known _ backed.known,fun name off => ?_⟩
  obtain ⟨v,request,member,named⟩ := backed.off name off
  exact ⟨v,request,List.mem_append_left _ member,named⟩

theorem PreferenceInv.inserted (inv : PreferenceInv w) {device : DeviceToken}
    (written : insertDevice device w.db = some (db,events)) :
    PreferenceInv ((World.mk db w.log).record t events) := by
  obtain ⟨known,fresh,rfl,unused,rfl⟩ := insertDevice_eq written
  have own : device.Backed w.db (w.log ++ [(t,.deviceRegistered device.userId device.token device.platform)]) :=
    ⟨known,⟨t,device.platform,by simp⟩,⟨t,device.userId,by simp⟩⟩
  refine ⟨?_,fun d member => ?_,fun row member => (inv.settings row member).later fun _ => id⟩
  · intro d member d' member' same
    simp only [World.db_record,Table.rows_insert,List.mem_append,List.mem_singleton] at member member'
    rcases member with before | rfl <;> rcases member' with before' | rfl
    · exact inv.unique d before d' before' same
    · exact absurd same (fresh d before)
    · exact absurd same.symm (fresh d' before')
    · rfl
  · simp only [World.db_record,Table.rows_insert,List.mem_append,List.mem_singleton] at member
    rcases member with before | rfl
    · exact (inv.devices d before).later fun _ => id
    · exact ⟨own.known,own.owner,own.platform⟩

theorem PreferenceInv.reassigned (inv : PreferenceInv w) {item row : DeviceToken} {userId : UUID}
    {platform : Platform} {now : Time} (present : w.db.deviceTokens.get? item.id = some row)
    (same : row.token = item.token) (written : updateDevice item userId platform now w.db = some (db,events)) :
    PreferenceInv ((World.mk db w.log).record t events) := by
  obtain ⟨known,rfl,rfl⟩ := updateDevice_eq written
  have rows : ∀ d, d ∈ (w.db.deviceTokens.modify (fun id => id = item.id) (reassign item userId platform now)
      (reassign_id item userId platform now)).rows → ∃ old ∈ w.db.deviceTokens.rows, d.token = old.token ∧
        (d = old ∨ old = row ∧ d = reassign item userId platform now old) := by
    intro d member
    rw [Table.rows_modify,List.mem_map] at member
    obtain ⟨old,member,rfl⟩ := member
    refine ⟨old,member,by split <;> rfl,?_⟩
    split
    next chosen =>
      have here := Table.get?_of_mem member
      rw [of_decide_eq_true chosen,present] at here
      exact .inr ⟨(Option.some.inj here).symm,rfl⟩
    next => exact .inl rfl
  refine ⟨?_,fun d member => ?_,fun row member => (inv.settings row member).later fun _ => id⟩
  · intro d member d' member' equal
    obtain ⟨old,before,token,made⟩ := rows d member
    obtain ⟨old',before',token',made'⟩ := rows d' member'
    have one := inv.unique old before old' before' (by rw [← token,← token',equal])
    subst one
    have ids : d.id = d'.id := by
      rcases made with rfl | ⟨_,rfl⟩ <;> rcases made' with rfl | ⟨_,rfl⟩ <;> rfl
    have first := Table.get?_of_mem member
    have second := Table.get?_of_mem member'
    rw [ids] at first
    exact Option.some.inj (first.symm.trans second)
  · obtain ⟨old,before,_,rfl | ⟨rfl,rfl⟩⟩ := rows d member
    · exact (inv.devices d before).later fun _ => id
    · have backed : old.Backed w.db (w.log ++ [(t,.deviceRegistered userId item.token platform)]) :=
        (inv.devices old before).later fun _ => id
      refine ⟨?_,?_,?_⟩
      · rw [reassign_userId]
        unfold flushed
        split
        next => exact backed.known
        next moved => exact known.resolve_left moved
      · rw [reassign_userId,reassign_token]
        rcases flushed_cases item.userId userId old.userId with kept | new
        · rw [kept]
          exact backed.owner
        · rw [new,same]
          exact ⟨t,platform,by simp⟩
      · rw [reassign_platform,reassign_token]
        rcases flushed_cases item.platform platform old.platform with kept | new
        · rw [kept]
          exact backed.platform
        · rw [new,same]
          exact ⟨t,userId,by simp⟩

theorem PreferenceInv.created (inv : PreferenceInv w) {userId : UUID}
    (written : insertSettings userId w.db = some (db,events)) :
    PreferenceInv ((World.mk db w.log).record t events) := by
  obtain ⟨known,rfl,unused,rfl⟩ := insertSettings_eq written
  refine ⟨inv.unique,fun d member => (inv.devices d member).later fun _ => id,fun row member => ?_⟩
  simp only [World.db_record,Table.rows_insert,List.mem_append,List.mem_singleton] at member
  rcases member with before | rfl
  · exact (inv.settings row before).later fun _ => id
  · refine ⟨known,fun name off => ?_⟩
    cases name <;> cases off

theorem PreferenceInv.updated (inv : PreferenceInv w) {loaded : NotificationSetting}
    {request : UpdateNotificationSettingsRequest} (written : writeSettings loaded request w.db = some (db,events)) :
    PreferenceInv ((World.mk db w.log).record t events) := by
  cases written
  refine ⟨inv.unique,fun d member => (inv.devices d member).later fun _ => id,fun row member => ?_⟩
  simp only [World.db_record,Table.rows_modify,List.mem_map] at member
  obtain ⟨old,before,rfl⟩ := member
  have backed : old.Backed w.db (w.log ++ [(t,.settingsUpdated loaded.userId request)]) :=
    (inv.settings old before).later fun _ => id
  split
  next chosen =>
    refine ⟨backed.known,fun name off => ?_⟩
    rw [enabled_overwrite,enabled_assigned] at off
    rw [overwrite_userId]
    rcases flushed_cases (loaded.enabled name) ((request.values name).getD (loaded.enabled name))
      (old.enabled name) with kept | new
    · exact backed.off name (kept.symm.trans off)
    · cases asked : request.values name with
      | some value =>
        rw [asked,Option.getD_some] at new off
        refine ⟨t,request,?_,by rw [asked,← off,new]⟩
        rw [of_decide_eq_true chosen]
        simp
      | none =>
        refine backed.off name ?_
        simpa [asked,flushed] using off
  next => exact ⟨backed.known,backed.off⟩

theorem PreferenceInv.step (inv : PreferenceInv w) (change : PreferenceChange r w db events) :
    PreferenceInv ((World.mk db w.log).record t events) := by
  cases change with
  | deviceSelected | settingsSelected =>
    exact ⟨inv.unique,fun d member => (inv.devices d member).later fun _ => id,
      fun row member => (inv.settings row member).later fun _ => id⟩
  | deviceInserted _ _ written => exact inv.inserted written
  | deviceUpdated _ _ present same written => exact inv.reassigned present same written
  | settingsInserted written => exact inv.created written
  | settingsUpdated _ written => exact inv.updated written
  | user written =>
    exact ⟨inv.unique,fun d member => (inv.devices d member).later fun _ => written.known,
      fun row member => (inv.settings row member).later fun _ => written.known⟩

end invariant
end Dalm
