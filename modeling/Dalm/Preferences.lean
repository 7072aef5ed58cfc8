import Dalm.Service
import Mathlib.Data.List.DropRight

/-! NotificationPreferenceRepository and its endpoints, over the tables they write and the users these
refer to. No row is locked between statements. -/
namespace Dalm
open Relational Txn

inductive Platform where
  | ios
  | android
deriving DecidableEq

/-- What the endpoint passes on: no blanks at the ends, something between them, and no more than the
column holds. -/
structure PushToken where
  text : List Char
  stripped : strip text = text
  present : text ≠ []
  fits : text.length ≤ 512
deriving DecidableEq

structure DeviceToken where
  id : UUID
  userId : UUID
  token : PushToken
  platform : Platform
  lastUsedAt : Time
deriving DecidableEq

structure NotificationSetting where
  userId : UUID
  validationEnabled : Bool
  matchEnabled : Bool
  postcardEnabled : Bool
  searchExpiredEnabled : Bool
  systemEnabled : Bool
deriving DecidableEq

inductive SettingName where
  | validationEnabled
  | matchEnabled
  | postcardEnabled
  | searchExpiredEnabled
  | systemEnabled
deriving DecidableEq

def NotificationSetting.enabled (settings : NotificationSetting) : SettingName → Bool
  | .validationEnabled => settings.validationEnabled
  | .matchEnabled => settings.matchEnabled
  | .postcardEnabled => settings.postcardEnabled
  | .searchExpiredEnabled => settings.searchExpiredEnabled
  | .systemEnabled => settings.systemEnabled

structure DeviceTokenRequest where
  token : List Char
  platform : Platform
  bounds : 1 ≤ token.length ∧ token.length ≤ 512

structure UpdateNotificationSettingsRequest where
  validationEnabled : Option Bool
  matchEnabled : Option Bool
  postcardEnabled : Option Bool
  searchExpiredEnabled : Option Bool
  systemEnabled : Option Bool
deriving DecidableEq

/-- `model_dump(exclude_none=True)`. -/
def UpdateNotificationSettingsRequest.values (request : UpdateNotificationSettingsRequest) :
    SettingName → Option Bool
  | .validationEnabled => request.validationEnabled
  | .matchEnabled => request.matchEnabled
  | .postcardEnabled => request.postcardEnabled
  | .searchExpiredEnabled => request.searchExpiredEnabled
  | .systemEnabled => request.systemEnabled

structure PreferenceDb where
  registry : Registry
  deviceTokens : Table DeviceToken.id
  settings : Table NotificationSetting.userId

structure PreferenceInput where
  now : Time
  uuid : UUID

inductive PreferenceEvent where
  | user (event : UserEvent)
  | deviceSelected (token : PushToken)
  | deviceRegistered (userId : UUID) (token : PushToken) (platform : Platform)
  | settingsSelected (userId : UUID)
  | settingsCreated (userId : UUID)
  | settingsUpdated (userId : UUID) (request : UpdateNotificationSettingsRequest)
deriving DecidableEq

instance PreferenceDb.lockable : Lockable PreferenceDb Empty where
  Row key := key.elim
  view key := key.elim

instance PreferenceDb.hasUsers : HasUsers PreferenceDb PreferenceInput PreferenceEvent where
  registry := PreferenceDb.registry
  withRegistry db registry := {db with registry := registry}
  clock := PreferenceInput.now
  drawn := PreferenceInput.uuid
  told := .user

abbrev Preferences (α : Type) := Txn PreferenceDb Empty PreferenceInput PreferenceEvent Exc α

/-- The foreign key of both tables. -/
def PreferenceDb.knows (db : PreferenceDb) (userId : UUID) : Bool := (db.registry.users.get? userId).isSome

namespace NotificationPreferenceRepository
open UserRepository (flushed)

def insertDevice (device : DeviceToken) (db : PreferenceDb) : Option (PreferenceDb × List PreferenceEvent) :=
  if db.knows device.userId ∧ db.deviceTokens.rows.all (fun row => row.token ≠ device.token) then
    (db.deviceTokens.insert? device).map fun rows =>
      ({db with deviceTokens := rows},[.deviceRegistered device.userId device.token device.platform])
  else none

def reassign (item : DeviceToken) (userId : UUID) (platform : Platform) (now : Time) (row : DeviceToken) :
    DeviceToken :=
  {row with
    userId := flushed item.userId userId row.userId
    platform := flushed item.platform platform row.platform
    lastUsedAt := flushed item.lastUsedAt now row.lastUsedAt}

@[simp] theorem reassign_id (item : DeviceToken) (userId : UUID) (platform : Platform) (now : Time)
    (row : DeviceToken) : (reassign item userId platform now row).id = row.id := rfl

@[simp] theorem reassign_token (item : DeviceToken) (userId : UUID) (platform : Platform) (now : Time)
    (row : DeviceToken) : (reassign item userId platform now row).token = row.token := rfl

@[simp] theorem reassign_userId (item : DeviceToken) (userId : UUID) (platform : Platform) (now : Time)
    (row : DeviceToken) : (reassign item userId platform now row).userId =
      flushed item.userId userId row.userId := rfl

@[simp] theorem reassign_platform (item : DeviceToken) (userId : UUID) (platform : Platform) (now : Time)
    (row : DeviceToken) : (reassign item userId platform now row).platform =
      flushed item.platform platform row.platform := rfl

/-- The foreign key is checked when the column is written. -/
def updateDevice (item : DeviceToken) (userId : UUID) (platform : Platform) (now : Time) (db : PreferenceDb) :
    Option (PreferenceDb × List PreferenceEvent) :=
  if userId = item.userId ∨ db.knows userId then
    let rows := db.deviceTokens.modify (fun id => id = item.id) (reassign item userId platform now)
      (reassign_id item userId platform now)
    some ({db with deviceTokens := rows},[.deviceRegistered userId item.token platform])
  else none

def registerDevice (userId : UUID) (token : PushToken) (platform : Platform) : Preferences Unit := do
  match ← observe (fun _ => .deviceSelected token)
      (fun db : PreferenceDb => db.deviceTokens.rows.filter fun row => row.token = token) with
  | [] =>
    let _ ← commitOr .integrityError fun i : PreferenceInput =>
      insertDevice ⟨i.uuid,userId,token,platform,i.now⟩
    return ()
  | [item] =>
    let clock ← supply
    let _ ← commitOr .integrityError fun _ => updateDevice item userId platform clock.now
    return ()
  | _ => throw .multipleResultsFound

def insertSettings (userId : UUID) (db : PreferenceDb) : Option (PreferenceDb × List PreferenceEvent) :=
  if db.knows userId then
    (db.settings.insert? ⟨userId,true,true,true,true,true⟩).map fun rows =>
      ({db with settings := rows},[.settingsCreated userId])
  else none

def getSettings (userId : UUID) : Preferences NotificationSetting := do
  match ← observe (fun _ => .settingsSelected userId) (fun db : PreferenceDb => db.settings.get? userId) with
  | some settings => return settings
  | none =>
    let _ ← commitOr .integrityError fun _ => insertSettings userId
    match ← observe (fun _ => .settingsSelected userId) (fun db : PreferenceDb => db.settings.get? userId) with
    | some settings => return settings
    | none => throw .noResultFound

/-- The attributes `setattr` leaves on the row loaded. -/
def assigned (request : UpdateNotificationSettingsRequest) (settings : NotificationSetting) : NotificationSetting :=
  {settings with
    validationEnabled := request.validationEnabled.getD settings.validationEnabled
    matchEnabled := request.matchEnabled.getD settings.matchEnabled
    postcardEnabled := request.postcardEnabled.getD settings.postcardEnabled
    searchExpiredEnabled := request.searchExpiredEnabled.getD settings.searchExpiredEnabled
    systemEnabled := request.systemEnabled.getD settings.systemEnabled}

/-- What the UPDATE makes of the row: the columns that differ from those loaded are written. -/
def overwrite (loaded new row : NotificationSetting) : NotificationSetting :=
  {row with
    validationEnabled := flushed loaded.validationEnabled new.validationEnabled row.validationEnabled
    matchEnabled := flushed loaded.matchEnabled new.matchEnabled row.matchEnabled
    postcardEnabled := flushed loaded.postcardEnabled new.postcardEnabled row.postcardEnabled
    searchExpiredEnabled :=
      flushed loaded.searchExpiredEnabled new.searchExpiredEnabled row.searchExpiredEnabled
    systemEnabled := flushed loaded.systemEnabled new.systemEnabled row.systemEnabled}

@[simp] theorem overwrite_userId (loaded new row : NotificationSetting) :
    (overwrite loaded new row).userId = row.userId := rfl

def writeSettings (loaded : NotificationSetting) (request : UpdateNotificationSettingsRequest) (db : PreferenceDb) :
    Option (PreferenceDb × List PreferenceEvent) :=
  let rows := db.settings.modify (fun userId => userId = loaded.userId)
    (overwrite loaded (assigned request loaded)) (overwrite_userId loaded (assigned request loaded))
  some ({db with settings := rows},[.settingsUpdated loaded.userId request])

def updateSettings (userId : UUID) (request : UpdateNotificationSettingsRequest) :
    Preferences NotificationSetting := do
  let settings ← getSettings userId
  let _ ← commitOr .integrityError fun _ => writeSettings settings request
  return assigned request settings

section lemmas
variable {loaded new row : NotificationSetting} {request : UpdateNotificationSettingsRequest} {name : SettingName}

@[simp] theorem enabled_assigned : (assigned request row).enabled name =
    (request.values name).getD (row.enabled name) := by cases name <;> rfl

@[simp] theorem enabled_overwrite : (overwrite loaded new row).enabled name =
    flushed (loaded.enabled name) (new.enabled name) (row.enabled name) := by cases name <;> rfl

end lemmas
end NotificationPreferenceRepository

/-- What a client is answered; a request refused by its endpoint reaches no repository. -/
inductive PreferenceResponse where
  | noContent
  | settings (data : NotificationSetting)
  | user (user : User)
  | refused (statusCode : Nat) (code message : String)
deriving DecidableEq

inductive PreferenceRequest where
  | registerDeviceToken (userId : UUID) (request : DeviceTokenRequest)
  | getNotificationSettings (userId : UUID)
  | updateNotificationSettings (userId : UUID) (request : UpdateNotificationSettingsRequest)
  | account (request : AccountRequest)

def invalidDeviceToken : PreferenceResponse :=
  .refused 422 "INVALID_DEVICE_TOKEN" "기기 토큰을 입력해주세요."

def emptyNotificationSettings : PreferenceResponse :=
  .refused 422 "EMPTY_NOTIFICATION_SETTINGS" "변경할 알림 설정을 입력해주세요."

section endpoints
open NotificationPreferenceRepository

theorem strip_strip (text : List Char) : strip (strip text) = strip text := by
  have trimmed : (strip text).dropWhile isSpace = strip text := by
    rw [List.dropWhile_eq_self_iff]
    intro long blank
    obtain ⟨rest,whole⟩ : strip text <+: text.dropWhile isSpace :=
      List.rdropWhile_prefix isSpace _
    have more : 0 < (text.dropWhile isSpace).length := by
      rw [← whole,List.length_append]
      exact Nat.add_pos_left long _
    refine List.dropWhile_get_zero_not isSpace text more ?_
    simp only [← whole,List.get_eq_getElem]
    rw [List.getElem_append_left long]
    exact blank
  unfold strip at trimmed ⊢
  rw [trimmed]
  exact List.rdropWhile_idempotent isSpace _

theorem length_strip_le (text : List Char) : (strip text).length ≤ text.length :=
  (List.rdropWhile_prefix isSpace _).length_le.trans (List.dropWhile_sublist isSpace).length_le

def DeviceTokenRequest.pushToken (request : DeviceTokenRequest) : Option PushToken :=
  if given : strip request.token ≠ [] then
    some ⟨strip request.token,strip_strip _,given,(length_strip_le _).trans request.bounds.2⟩
  else none

def registerDeviceToken (userId : UUID) (request : DeviceTokenRequest) : Preferences PreferenceResponse :=
  match request.pushToken with
  | none => return invalidDeviceToken
  | some token => do
    registerDevice userId token request.platform
    return .noContent

def UpdateNotificationSettingsRequest.isEmpty (request : UpdateNotificationSettingsRequest) : Bool :=
  request = ⟨none,none,none,none,none⟩

def updateNotificationSettings (userId : UUID) (request : UpdateNotificationSettingsRequest) :
    Preferences PreferenceResponse :=
  if request.isEmpty then return emptyNotificationSettings
  else do return .settings (← updateSettings userId request)

def preferenceAccount : AccountRequest → Preferences PreferenceResponse
  | .login identity => do
    match ← UserRepository.getBy identity with
    | none => return .user (← UserRepository.createFrom identity)
    | some user => return .user user
  | .completeOnboarding userId form => do
    return .user (← UserRepository.completeOnboarding userId form)
  | .updateProfile userId change => do
    return .user (← UserRepository.updateProfile userId change)
  | .withdraw userId => do
    UserRepository.withdraw userId
    return .noContent

def preferenceProgram : PreferenceRequest → Preferences PreferenceResponse
  | .registerDeviceToken userId request => registerDeviceToken userId request
  | .getNotificationSettings userId => do return .settings (← getSettings userId)
  | .updateNotificationSettings userId request => updateNotificationSettings userId request
  | .account request => preferenceAccount request

end endpoints

abbrev PreferenceSystem :=
  System PreferenceDb Empty PreferenceInput PreferenceEvent Exc PreferenceRequest PreferenceResponse

abbrev PreferenceWorld := World PreferenceDb PreferenceEvent

end Dalm
