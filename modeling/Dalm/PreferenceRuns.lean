import Dalm.PreferenceChanges
import Dalm.Relational.Soundness

/-! What registrations of devices and updates of settings that returned have left, whoever acted in between. -/
namespace Dalm
open Relational Held Txn NotificationPreferenceRepository
open UserRepository (flushed)
variable {r : PreferenceRequest} {t : Nat} {w w' : PreferenceWorld} {db : PreferenceDb}
  {events : List PreferenceEvent}

/-- An UPDATE writes the column when it asks for something else than was loaded. -/
def Assigns {V : Type} [DecidableEq V] (column : DeviceToken → V) (asked : UUID → Platform → V) : Prop :=
  ∀ item userId platform now row, column (reassign item userId platform now row) =
    flushed (column item) (asked userId platform) (column row)

section obeys
variable {V : Type} [DecidableEq V] {column : DeviceToken → V} {asked : UUID → Platform → V} {token : PushToken}

theorem deviceCell_updated (assigns : Assigns column asked) (inv : PreferenceInv w) {userId : UUID}
    {platform : Platform} {item row : DeviceToken} {now : Time} (present : w.db.deviceTokens.get? item.id = some row)
    (same : row.token = item.token) (written : updateDevice item userId platform now w.db = some (db,events)) :
    (deviceCell column asked item.token).view db = ((deviceCell column asked item.token).view w.db).map
      fun current => if asked userId platform = column item then current else asked userId platform := by
  obtain ⟨_,_,rfl⟩ := updateDevice_eq written
  have assigned : column ∘ reassign item userId platform now =
      (fun current => flushed (column item) (asked userId platform) current) ∘ column := by
    funext row
    exact assigns item userId platform now row
  change Option.map column _ = Option.map _ (Option.map column _)
  rw [deviceOf_updated inv.unique present same,if_pos rfl,Option.map_map,assigned,← Option.map_map]
  rfl

theorem PreferenceChange.device_obeys (assigns : Assigns column asked) (inv : PreferenceInv w)
    (change : PreferenceChange r w db events) : (deviceCell column asked token).Obeys events w.db db := by
  cases change with
  | deviceSelected | settingsSelected | user => exact .of_eq rfl
  | settingsInserted written =>
    obtain ⟨_,_,_,rfl⟩ := insertSettings_eq written
    exact .of_eq rfl
  | settingsUpdated _ written =>
    cases written
    exact .of_eq rfl
  | deviceInserted _ _ written =>
    obtain ⟨_,fresh,_,_,rfl⟩ := insertDevice_eq written
    intro old held
    obtain ⟨row,found,rfl⟩ := Option.map_eq_some_iff.mp held
    refine .inl ?_
    change Option.map column _ = _
    rw [deviceOf_inserted fresh]
    split
    next same =>
      have there := List.mem_of_find?_eq_some found
      have named : row.token = token := by simpa using List.find?_some found
      exact absurd (named.trans same) (fresh row there)
    next => exact held
  | @deviceUpdated userId request item row now _ _ _ _ present same written =>
    by_cases own : token = item.token
    · subst own
      intro old held
      have after := deviceCell_updated assigns inv present same written
      rw [held,Option.map_some] at after
      obtain ⟨_,rfl,_⟩ := updateDevice_eq written
      rcases flushed_cases (column item) (asked userId request.platform) old with kept | new
      · exact .inl (after.trans (congrArg some kept))
      · exact .inr ⟨_,List.mem_singleton_self _,_,if_pos rfl,after.trans (congrArg some new)⟩
    · obtain ⟨_,_,rfl⟩ := updateDevice_eq written
      refine .of_eq (congrArg (Option.map column) ?_)
      rw [deviceOf_updated inv.unique present same,if_neg own]

end obeys

theorem PreferenceChange.flag_obeys {userId : UUID} {name : SettingName}
    (change : PreferenceChange r w db events) : (flagCell userId name).Obeys events w.db db := by
  cases change with
  | deviceSelected | settingsSelected | user => exact .of_eq rfl
  | deviceInserted _ _ written =>
    obtain ⟨_,_,_,_,rfl⟩ := insertDevice_eq written
    exact .of_eq rfl
  | deviceUpdated _ _ _ _ written =>
    obtain ⟨_,_,rfl⟩ := updateDevice_eq written
    exact .of_eq rfl
  | settingsInserted written =>
    obtain ⟨_,_,fresh,rfl⟩ := insertSettings_eq written
    intro old held
    obtain ⟨row,found,rfl⟩ := Option.map_eq_some_iff.mp held
    exact .inl (congrArg (Option.map _) (Table.get?_insert_of_some fresh found))
  | @settingsUpdated request loaded _ _ _ written =>
    cases written
    intro old held
    obtain ⟨row,found,rfl⟩ := Option.map_eq_some_iff.mp held
    simp only [flagCell]
    rw [Table.get?_modify,found]
    by_cases own : userId = loaded.userId
    · subst own
      simp only [decide_true,if_true,Option.map_some,enabled_overwrite,enabled_assigned]
      cases named : request.values name with
      | none => exact .inl (by simp [flushed])
      | some value =>
        rcases flushed_cases (loaded.enabled name) value (row.enabled name) with kept | new
        · exact .inl (congrArg some kept)
        · exact .inr ⟨_,List.mem_singleton_self _,value,(if_pos rfl).trans named,congrArg some new⟩
    · exact .inl (by simp [own])

/-- What the requests may do, as a protocol without row locks. -/
def preferenceProtocol : Protocol PreferenceDb Empty PreferenceEvent PreferenceRequest where
  step r t _ w w' := ∃ db events, PreferenceChange r w db events ∧ w' = (World.mk db w.log).record t events
  inv := PreferenceInv
  records := fun ⟨db,events,_,same⟩ => ⟨db,events,same⟩
  keep := by
    rintro r t held w _ ⟨db,events,change,rfl⟩ inv
    exact inv.step change
  frame := fun _ _ key => key.elim

theorem PreferenceChange.taken {held : List Empty} (change : PreferenceChange r w db events) :
    preferenceProtocol.step r t held w ((World.mk db w.log).record t events) := ⟨db,events,change,rfl⟩

theorem preferencePermits : UserRepository.Permits preferenceProtocol r t :=
  fun _ _ _ _ written => PreferenceChange.taken (.user written)

theorem PreferenceChange.of_taken {held : List Empty}
    (taken : preferenceProtocol.step r t held w ((World.mk db w.log).record t events)) :
    PreferenceChange r w db events := by
  obtain ⟨db',events',change,same⟩ := taken
  have logs := List.append_cancel_left (congrArg World.log same)
  have told : events = events' := List.map_injective_iff.mpr (fun _ _ equal => (Prod.mk.inj equal).2) logs
  cases congrArg World.db same
  exact told ▸ change

theorem obeyedBy_of_changes {V : Type} {c : Cell PreferenceDb PreferenceEvent V}
    (obeys : ∀ {r w db events}, PreferenceInv w → PreferenceChange r w db events → c.Obeys events w.db db) :
    c.ObeyedBy preferenceProtocol := fun inv taken => obeys inv (.of_taken taken)

theorem ownerCell_obeyed (token : PushToken) : (ownerCell token).ObeyedBy preferenceProtocol :=
  obeyedBy_of_changes fun inv change => change.device_obeys (fun _ _ _ _ _ => rfl) inv

theorem platformCell_obeyed (token : PushToken) : (platformCell token).ObeyedBy preferenceProtocol :=
  obeyedBy_of_changes fun inv change => change.device_obeys (fun _ _ _ _ _ => rfl) inv

theorem flagCell_obeyed (userId : UUID) (name : SettingName) : (flagCell userId name).ObeyedBy preferenceProtocol :=
  obeyedBy_of_changes fun _ change => change.flag_obeys

section later
variable {D : Discipline PreferenceDb PreferenceInput PreferenceEvent}

theorem PreferenceChange.device_stays {id : UUID} {row : DeviceToken} (change : PreferenceChange r w db events)
    (found : w.db.deviceTokens.get? id = some row) :
    ∃ row', db.deviceTokens.get? id = some row' ∧ row'.token = row.token := by
  cases change with
  | deviceSelected | settingsSelected | user => exact ⟨row,found,rfl⟩
  | settingsInserted written =>
    obtain ⟨_,_,_,rfl⟩ := insertSettings_eq written
    exact ⟨row,found,rfl⟩
  | settingsUpdated _ written =>
    cases written
    exact ⟨row,found,rfl⟩
  | deviceInserted _ _ written =>
    obtain ⟨_,_,_,fresh,rfl⟩ := insertDevice_eq written
    exact ⟨row,Table.get?_insert_of_some fresh found,rfl⟩
  | deviceUpdated _ _ _ _ written =>
    obtain ⟨_,_,rfl⟩ := updateDevice_eq written
    refine ⟨_,Table.get?_modify_eq_some.mpr ⟨row,found,rfl⟩,?_⟩
    split <;> rfl

theorem device_later {id : UUID} {row : DeviceToken} (later : Later preferenceProtocol D t [] w w')
    (found : w.db.deviceTokens.get? id = some row) :
    ∃ row', w'.db.deviceTokens.get? id = some row' ∧ row'.token = row.token := by
  refine later.preserves (F := fun w' => ∃ row', w'.db.deviceTokens.get? id = some row' ∧ row'.token = row.token)
    ⟨row,found,rfl⟩ ?_
  rintro a b ⟨_,_,_,_,_,_,⟨db,events,change,rfl⟩,_⟩ ⟨row',found',same⟩
  obtain ⟨row'',found'',same'⟩ := change.device_stays found'
  exact ⟨row'',found'',same'.trans same⟩

/-- The session looked the token up and then registered it for the user; he and the platform stand in its
row, or others that registered the token since the lookup. -/
def DeviceStands (userId : UUID) (token : PushToken) (platform : Platform) (t : Nat) (w : PreferenceWorld) :
    Prop :=
  ∃ before after, w.log = before ++ (t,.deviceSelected token) :: after ∧
    (t,.deviceRegistered userId token platform) ∈ after ∧
    (ownerCell token).Remains t after userId w.db ∧ (platformCell token).Remains t after platform w.db

/-- The session read the settings of the user and then told of what it wrote; each flag it saw or wrote
stands, or one that updates of others that name it asked for since the read. -/
def SettingsStand (userId : UUID) (data : NotificationSetting) (wrote : List PreferenceEvent) (t : Nat)
    (w : PreferenceWorld) : Prop :=
  ∃ before after, w.log = before ++ (t,.settingsSelected userId) :: after ∧
    (∀ event ∈ wrote, (t,event) ∈ after) ∧
    ∀ name, (flagCell userId name).Remains t after (data.enabled name) w.db

theorem DeviceStands.later {userId : UUID} {token : PushToken} {platform : Platform}
    (stands : DeviceStands userId token platform t w) (later : Later preferenceProtocol D t [] w w') :
    DeviceStands userId token platform t w' := by
  obtain ⟨before,after,log,member,owner,platform⟩ := stands
  obtain ⟨more,same,_⟩ := later.appends (S := fun _ => False)
  exact ⟨before,after ++ more,by simp [same,log],List.mem_append_left more member,
    later.remains (ownerCell_obeyed token) owner same,later.remains (platformCell_obeyed token) platform same⟩

theorem SettingsStand.later {userId : UUID} {data : NotificationSetting} {wrote : List PreferenceEvent}
    (stands : SettingsStand userId data wrote t w) (later : Later preferenceProtocol D t [] w w') :
    SettingsStand userId data wrote t w' := by
  obtain ⟨before,after,log,member,flags⟩ := stands
  obtain ⟨more,same,_⟩ := later.appends (S := fun _ => False)
  exact ⟨before,after ++ more,by simp [same,log],fun event told => List.mem_append_left more (member event told),
    fun name => later.remains (flagCell_obeyed userId name) (flags name) same⟩

end later

section programs
variable {D : Discipline PreferenceDb PreferenceInput PreferenceEvent} {α : Type}
  {Q : Except Exc α → Held PreferenceDb Empty → PreferenceWorld → Prop} {userId : UUID}

theorem wp_registerDevice {token : PushToken} {request : DeviceTokenRequest} {k : Unit → Preferences α}
    (asked : r = .registerDeviceToken userId request) (given : request.pushToken = some token)
    (failed : ∀ error w', Q (.error error) [] w')
    (rest : ∀ w', DeviceStands userId token request.platform t w' → wp preferenceProtocol D r t (k ()) Q [] w') :
    wp preferenceProtocol D r t (registerDevice userId token request.platform >>= k) Q [] w := by
  apply wp_bind
  unfold registerDevice
  apply wp_observe
  intro w₁ later₁ _
  refine ⟨PreferenceChange.deviceSelected.taken,?_⟩
  split
  next absent =>
    apply wp_commit fun _ _ _ _ _ => failed _ _
    intro i w₂ db events later₂ _ written _
    refine ⟨PreferenceChange.taken (.deviceInserted asked given written),rest _ ?_⟩
    obtain ⟨_,fresh,rfl,_,rfl⟩ := insertDevice_eq written
    obtain ⟨more,same,_⟩ := later₂.appends (S := fun _ => False)
    refine ⟨w₁.log,more ++ [(t,.deviceRegistered userId token request.platform)],by simp [same],by simp,.inl ?_,
      .inl ?_⟩
    · exact congrArg (Option.map _) ((deviceOf_inserted fresh).trans (if_pos rfl))
    · exact congrArg (Option.map _) ((deviceOf_inserted fresh).trans (if_pos rfl))
  next item found =>
    have here : item ∈ w₁.db.deviceTokens.rows.filter fun row => row.token = token := by
      rw [found]
      exact List.mem_singleton_self _
    obtain ⟨member,named⟩ := List.mem_filter.mp here
    have named := of_decide_eq_true named
    subst named
    have only : w₁.db.deviceOf item.token = some item := by
      unfold PreferenceDb.deviceOf
      rw [← List.head?_filter,found]
      rfl
    apply wp_supply
    intro clock w₂ later₂ _
    apply wp_commit fun _ _ _ _ _ => failed _ _
    intro i w₃ db events later₃ _ written _
    have later := later₂.trans later₃
    obtain ⟨row,present,same⟩ := device_later later (Table.get?_of_mem member)
    refine ⟨PreferenceChange.taken (.deviceUpdated asked given present same written),rest _ ?_⟩
    obtain ⟨_,rfl,_⟩ := updateDevice_eq written
    obtain ⟨more,grown,_⟩ := later.appends (S := fun _ => False)
    have owner : (ownerCell item.token).Remains t [] item.userId w₁.db := .inl (congrArg (Option.map _) only)
    have owner := later.remains (ownerCell_obeyed item.token) owner grown
    have platform : (platformCell item.token).Remains t [] item.platform w₁.db :=
      .inl (congrArg (Option.map _) only)
    have platform := later.remains (platformCell_obeyed item.token) platform grown
    refine ⟨w₁.log,more ++ [(t,.deviceRegistered userId item.token request.platform)],by simp [grown],by simp,?_,?_⟩
    · exact (owner.flushed (deviceCell_updated (fun _ _ _ _ _ => rfl) later.inv present same written)).append _
    · exact (platform.flushed (deviceCell_updated (fun _ _ _ _ _ => rfl) later.inv present same written)).append _
  next => exact failed _ _

theorem wp_readSettings {k : Option NotificationSetting → Preferences α}
    (missing : ∀ w', wp preferenceProtocol D r t (k none) Q [] w')
    (found : ∀ data w', data.userId = userId → SettingsStand userId data [] t w' →
      wp preferenceProtocol D r t (k (some data)) Q [] w') :
    wp preferenceProtocol D r t ((observe (fun _ => .settingsSelected userId)
      fun db : PreferenceDb => db.settings.get? userId) >>= k) Q [] w := by
  apply wp_observe
  intro w₁ later _
  refine ⟨PreferenceChange.settingsSelected.taken,?_⟩
  cases read : w₁.db.settings.get? userId with
  | none => exact missing _
  | some data =>
    exact found data _ (Table.key_of_get? read) ⟨w₁.log,[],by simp,by simp,
      fun name => .inl (congrArg (Option.map _) read)⟩

theorem wp_getSettings {k : NotificationSetting → Preferences α} (failed : ∀ error w', Q (.error error) [] w')
    (rest : ∀ data w', data.userId = userId → SettingsStand userId data [] t w' →
      wp preferenceProtocol D r t (k data) Q [] w') :
    wp preferenceProtocol D r t (getSettings userId >>= k) Q [] w := by
  apply wp_bind
  unfold getSettings
  refine wp_readSettings (fun w₁ => ?_) rest
  dsimp only
  apply wp_commit
  · exact fun _ _ _ _ _ => failed _ _
  · intro i w₂ db events later _ written _
    exact ⟨PreferenceChange.taken (.settingsInserted written),wp_readSettings (fun _ => failed _ _) rest⟩

theorem wp_updateSettings {request : UpdateNotificationSettingsRequest} {k : NotificationSetting → Preferences α}
    (asked : r = .updateNotificationSettings userId request) (failed : ∀ error w', Q (.error error) [] w')
    (rest : ∀ data w', data.userId = userId →
      (∀ name value, request.values name = some value → data.enabled name = value) →
      SettingsStand userId data [.settingsUpdated userId request] t w' →
      wp preferenceProtocol D r t (k data) Q [] w') :
    wp preferenceProtocol D r t (updateSettings userId request >>= k) Q [] w := by
  apply wp_bind
  unfold updateSettings
  refine wp_getSettings failed fun loaded w₁ own stands => ?_
  subst own
  apply wp_commit
  · exact fun _ _ _ _ _ => failed _ _
  · intro i w₂ db events later _ written _
    refine ⟨PreferenceChange.taken (.settingsUpdated asked written),rest _ _ rfl (fun name value named => ?_) ?_⟩
    · rw [enabled_assigned,named,Option.getD_some]
    · cases written
      obtain ⟨before,after,log,_,flags⟩ := stands.later later
      refine ⟨before,after ++ [(t,.settingsUpdated loaded.userId request)],by simp [log],by simp,fun name => ?_⟩
      refine ((flags name).flushed ?_).append _
      rw [enabled_assigned]
      change Option.map _ ((w₂.db.settings.modify _ _ _).get? loaded.userId) = Option.map _ (Option.map _ _)
      rw [Table.get?_modify,if_pos (decide_eq_true rfl),Option.map_map,Option.map_map]
      congr 1
      funext row
      exact (enabled_overwrite ..).trans (by rw [enabled_assigned]; rfl)

theorem wp_preferenceAccount {request : AccountRequest}
    {Q : Except Exc PreferenceResponse → Held PreferenceDb Empty → PreferenceWorld → Prop}
    (always : ∀ x w', Q x [] w') : wp preferenceProtocol D r t (preferenceAccount request) Q [] w := by
  have permits : UserRepository.Permits preferenceProtocol r t := preferencePermits
  cases request with
  | login identity =>
    apply UserRepository.wp_getBy
    intro found w₁ _
    cases found with
    | some user => exact always _ _
    | none =>
      exact UserRepository.wp_createFrom (S := fun _ => True) permits (fun _ => trivial) (fun _ _ => always _ _)
        fun _ _ _ _ => always _ _
  | completeOnboarding userId form =>
    apply wp_bind
    exact UserRepository.wp_completeOnboarding (S := fun _ => True) permits (fun _ => trivial)
      (fun _ _ => always _ _) fun _ _ _ _ => always _ _
  | updateProfile userId change =>
    apply wp_bind
    exact UserRepository.wp_updateProfile (S := fun _ => True) permits (fun _ => trivial)
      (fun _ _ => always _ _) fun _ _ _ _ => always _ _
  | withdraw userId => exact UserRepository.wp_withdraw permits (fun _ _ => always _ _) fun _ _ _ _ _ => always _ _

end programs

/-- What a request that returned has left. -/
def PreferenceOutcome : PreferenceRequest → Nat → Except Exc PreferenceResponse → PreferenceWorld → Prop
  | .registerDeviceToken userId request,t,.ok response,w =>
    (request.pushToken = none ∧ response = invalidDeviceToken) ∨ (response = .noContent ∧
      ∃ token, request.pushToken = some token ∧ DeviceStands userId token request.platform t w)
  | .getNotificationSettings userId,t,.ok response,w =>
    ∃ data, response = .settings data ∧ data.userId = userId ∧ SettingsStand userId data [] t w
  | .updateNotificationSettings userId request,t,.ok response,w =>
    (request.isEmpty ∧ response = emptyNotificationSettings) ∨ ∃ data, response = .settings data ∧
      data.userId = userId ∧ (∀ name value, request.values name = some value → data.enabled name = value) ∧
        SettingsStand userId data [.settingsUpdated userId request] t w
  | _,_,_,_ => True

theorem PreferenceOutcome.later {D : Discipline PreferenceDb PreferenceInput PreferenceEvent}
    {x : Except Exc PreferenceResponse} (outcome : PreferenceOutcome r t x w)
    (later : Later preferenceProtocol D t [] w w') : PreferenceOutcome r t x w' := by
  cases x with
  | error error => cases r <;> trivial
  | ok response =>
    cases r with
    | registerDeviceToken userId request =>
      refine outcome.imp id ?_
      rintro ⟨answered,token,given,stands⟩
      exact ⟨answered,token,given,stands.later later⟩
    | getNotificationSettings userId =>
      obtain ⟨data,answered,own,stands⟩ := outcome
      exact ⟨data,answered,own,stands.later later⟩
    | updateNotificationSettings userId request =>
      refine outcome.imp id ?_
      rintro ⟨data,answered,own,named,stands⟩
      exact ⟨data,answered,own,named,stands.later later⟩
    | account request => trivial

theorem preferenceMeets (D : Discipline PreferenceDb PreferenceInput PreferenceEvent) :
    Meets preferenceProtocol D PreferenceOutcome preferenceProgram := by
  intro r t w inv _
  cases r with
  | registerDeviceToken userId request =>
    change wp _ _ _ _ (registerDeviceToken userId request) _ _ _
    unfold registerDeviceToken
    split
    next refused => exact .inl ⟨refused,rfl⟩
    next token given =>
      refine wp_registerDevice rfl given (fun _ _ => trivial) fun w' stands => ?_
      exact .inr ⟨rfl,token,given,stands⟩
  | getNotificationSettings userId =>
    exact wp_getSettings (fun _ _ => trivial) fun data w' own stands => ⟨data,rfl,own,stands⟩
  | updateNotificationSettings userId request =>
    change wp _ _ _ _ (updateNotificationSettings userId request) _ _ _
    unfold updateNotificationSettings
    split
    next empty => exact .inl ⟨empty,rfl⟩
    next =>
      refine wp_updateSettings rfl (fun _ _ => trivial) fun data w' own named stands => ?_
      exact .inr ⟨data,rfl,own,named,stands⟩
  | account request => exact wp_preferenceAccount fun _ _ => trivial

/-- What a request can be told to have done. -/
def PreferenceRequest.Tells (r : PreferenceRequest) : PreferenceEvent → Prop
  | .deviceRegistered userId token platform => ∃ request, r = .registerDeviceToken userId request ∧
      request.pushToken = some token ∧ request.platform = platform
  | .settingsUpdated userId request => r = .updateNotificationSettings userId request
  | _ => True

theorem PreferenceChange.tells (change : PreferenceChange r w db events) : ∀ event ∈ events, r.Tells event := by
  cases change with
  | deviceSelected | settingsSelected => simp [PreferenceRequest.Tells]
  | deviceInserted asked given written =>
    obtain ⟨_,_,rfl,_⟩ := insertDevice_eq written
    exact List.forall_mem_singleton.mpr ⟨_,asked,given,rfl⟩
  | deviceUpdated asked given _ _ written =>
    obtain ⟨_,rfl,_⟩ := updateDevice_eq written
    exact List.forall_mem_singleton.mpr ⟨_,asked,given,rfl⟩
  | settingsInserted written =>
    obtain ⟨_,rfl,_⟩ := insertSettings_eq written
    exact List.forall_mem_singleton.mpr trivial
  | settingsUpdated asked written =>
    cases written
    exact List.forall_mem_singleton.mpr asked
  | user =>
    intro event member
    obtain ⟨_,_,rfl⟩ := List.mem_map.mp member
    trivial

/-- Any number of requests, their statements in any order, from the users there are and no rows yet. -/
def PreferenceReachable (registry : Registry) (s : PreferenceSystem) : Prop :=
  Reach preferenceProgram .none (System.initial ⟨registry,.empty,.empty⟩) s

section runs
variable {registry : Registry} {s : PreferenceSystem}

theorem PreferenceReachable.good : ∃ H, Good preferenceProtocol Discipline.none PreferenceOutcome
    (System.initial ⟨registry,.empty,.empty⟩ : PreferenceSystem) H := by
  refine ⟨_,Good.initial _ ⟨?_,?_,?_⟩⟩ <;> intro row member <;> cases member

theorem PreferenceReachable.inv (reachable : PreferenceReachable registry s) : PreferenceInv s.world := by
  obtain ⟨H,good⟩ := Reach.good reachable PreferenceReachable.good (preferenceMeets _)
    fun _ _ _ _ _ outcome later => outcome.later later
  exact good.inv

theorem PreferenceReachable.returned (reachable : PreferenceReachable registry s) {t : Nat}
    {r : PreferenceRequest} {response : PreferenceResponse} (ended : s.session t = some ⟨r,.inr (.ok response)⟩) :
    PreferenceOutcome r t (.ok response) s.world :=
  Reach.returned reachable PreferenceReachable.good (fun _ => rfl) (preferenceMeets _)
    (fun _ _ _ _ _ outcome later => outcome.later later) ended

theorem PreferenceReachable.told (reachable : PreferenceReachable registry s) {t : Nat} {event : PreferenceEvent}
    (member : (t,event) ∈ s.world.log) :
    ∃ r state, s.session t = some ⟨r,state⟩ ∧ r.Tells event :=
  Reach.told reachable PreferenceReachable.good rfl (preferenceMeets _)
    (fun _ _ _ _ _ outcome later => outcome.later later) (fun taken => (PreferenceChange.of_taken taken).tells) member

/-- A push token has one row at most. Its owner is a user, and he and the platform were registered for the
token by requests that asked for them. A registration that returned stands, owner and platform each, unless
another of the same token was committed after it had looked the token up. -/
theorem deviceRegistrations (reachable : PreferenceReachable registry s) :
    (∀ d ∈ s.db.deviceTokens.rows, ∀ d' ∈ s.db.deviceTokens.rows, d.token = d'.token → d = d') ∧
    (∀ d ∈ s.db.deviceTokens.rows, d.Backed s.db s.world.log) ∧
    (∀ t event, (t,event) ∈ s.world.log → ∃ r state, s.session t = some ⟨r,state⟩ ∧ r.Tells event) ∧
    ∀ t userId request response, s.session t = some ⟨.registerDeviceToken userId request,.inr (.ok response)⟩ →
      (request.pushToken = none ∧ response = invalidDeviceToken) ∨ (response = .noContent ∧
        ∃ token, request.pushToken = some token ∧ DeviceStands userId token request.platform t s.world) :=
  ⟨reachable.inv.unique,reachable.inv.devices,fun _ _ => reachable.told,
    fun _ _ _ _ ended => reachable.returned ended⟩

/-- A flag is off when an update of its user that was committed asked it off. An answer shows the flags an
update names as it names them, and each flag it shows stands, unless another update of the user that names
it was committed after the row had been read. -/
theorem notificationSettings (reachable : PreferenceReachable registry s) :
    (∀ row ∈ s.db.settings.rows, row.Backed s.db s.world.log) ∧
    (∀ t event, (t,event) ∈ s.world.log → ∃ r state, s.session t = some ⟨r,state⟩ ∧ r.Tells event) ∧
    (∀ t userId response, s.session t = some ⟨.getNotificationSettings userId,.inr (.ok response)⟩ →
      ∃ data, response = .settings data ∧ data.userId = userId ∧ SettingsStand userId data [] t s.world) ∧
    ∀ t userId request response,
      s.session t = some ⟨.updateNotificationSettings userId request,.inr (.ok response)⟩ →
        (request.isEmpty ∧ response = emptyNotificationSettings) ∨ ∃ data, response = .settings data ∧
          data.userId = userId ∧ (∀ name value, request.values name = some value → data.enabled name = value) ∧
            SettingsStand userId data [.settingsUpdated userId request] t s.world :=
  ⟨reachable.inv.settings,fun _ _ => reachable.told,fun _ _ _ ended => reachable.returned ended,
    fun _ _ _ _ ended => reachable.returned ended⟩

end runs

namespace Sample

def twoUsers : Registry :=
  ⟨⟨[⟨1,some "1",none,some "first",none,none,false,.active,none⟩,
    ⟨2,some "2",none,some "second",none,none,false,.active,none⟩],by decide⟩,.empty⟩

/-- Statement `n` of a run, with a time and an identifier of its own. -/
def preferenceStatements (t first count : Nat) : List (Action PreferenceInput Exc PreferenceRequest) :=
  (List.range count).map fun n => .exec t ⟨(first + n : Nat),Fin.ofNat _ (first + n)⟩

def preferencesAfter (actions : List (Action PreferenceInput Exc PreferenceRequest)) : Option PreferenceSystem :=
  (System.initial ⟨twoUsers,.empty,.empty⟩ : PreferenceSystem).run preferenceProgram actions

theorem preferencesReached (actions : List (Action PreferenceInput Exc PreferenceRequest))
    (test : PreferenceSystem → Bool) (passes : (preferencesAfter actions).any test = true) :
    ∃ s, PreferenceReachable twoUsers s ∧ test s = true := by
  obtain ⟨s,ran,passed⟩ := (Option.any_eq_true test _).mp passes
  exact ⟨s,Reach.of_run ran,passed⟩

def pushTokenRequest : DeviceTokenRequest := ⟨" fcm ".toList,.ios,by decide⟩

/-- The third session loads the row of the first, of the same user, and leaves the owner the second wrote. -/
def registeredAtOnce : List (Action PreferenceInput Exc PreferenceRequest) :=
  .start 1 (.registerDeviceToken 1 pushTokenRequest) :: preferenceStatements 1 100 3 ++
    [.start 2 (.registerDeviceToken 2 pushTokenRequest),.start 3 (.registerDeviceToken 1 pushTokenRequest)] ++
    preferenceStatements 2 200 1 ++ preferenceStatements 3 300 1 ++ preferenceStatements 2 201 3 ++
    preferenceStatements 3 301 3

def registeredInVain (s : PreferenceSystem) : Bool :=
  match s.session 3 with
  | some ⟨.registerDeviceToken userId request,.inr (.ok .noContent)⟩ =>
    s.db.deviceTokens.rows.any fun d => request.pushToken = some d.token ∧ d.userId ≠ userId
  | _ => false

/-- The third session sees the match flag on, as it wants it, and leaves it off as the second wrote it. -/
def updatedAtOnce : List (Action PreferenceInput Exc PreferenceRequest) :=
  .start 1 (.getNotificationSettings 1) :: preferenceStatements 1 100 4 ++
    [.start 2 (.updateNotificationSettings 1 ⟨none,some false,none,none,none⟩),
      .start 3 (.updateNotificationSettings 1 ⟨none,some true,some false,none,none⟩)] ++
    preferenceStatements 2 200 1 ++ preferenceStatements 3 300 1 ++ preferenceStatements 2 201 2 ++
    preferenceStatements 3 301 2

def updatedInVain (s : PreferenceSystem) : Bool :=
  match s.session 3 with
  | some ⟨.updateNotificationSettings userId request,.inr (.ok (.settings data))⟩ =>
    !request.isEmpty && data.matchEnabled && (s.db.settings.get? userId).any fun row => !row.matchEnabled
  | _ => false

end Sample

/-- Of two registrations at once the one committed last left the owner the other wrote. -/
theorem deviceRegistrations_raced : ∃ (s : PreferenceSystem) (userId : UUID) (request : DeviceTokenRequest)
    (token : PushToken), s.session 3 = some ⟨.registerDeviceToken userId request,.inr (.ok .noContent)⟩ ∧
      request.pushToken = some token ∧ DeviceStands userId token request.platform 3 s.world ∧
        ∃ d ∈ s.db.deviceTokens.rows, d.token = token ∧ d.userId ≠ userId := by
  obtain ⟨s,reachable,passes⟩ := Sample.preferencesReached Sample.registeredAtOnce Sample.registeredInVain
    (by decide +kernel)
  unfold Sample.registeredInVain at passes
  split at passes
  next userId request ended =>
    obtain ⟨d,member,test⟩ := List.any_eq_true.mp passes
    obtain ⟨given,other⟩ := of_decide_eq_true test
    rcases (deviceRegistrations reachable).2.2.2 3 userId request _ ended with ⟨refused,_⟩ | ⟨_,token,named,stands⟩
    · cases given.symm.trans refused
    · cases given.symm.trans named
      exact ⟨s,userId,request,_,ended,given,stands,d,member,rfl,other⟩
  next => cases passes

/-- Of two updates at once the one committed last left a flag it names as the other wrote it. -/
theorem notificationSettings_raced : ∃ (s : PreferenceSystem) (userId : UUID)
    (request : UpdateNotificationSettingsRequest) (data : NotificationSetting),
      s.session 3 = some ⟨.updateNotificationSettings userId request,.inr (.ok (.settings data))⟩ ∧
        SettingsStand userId data [.settingsUpdated userId request] 3 s.world ∧ data.matchEnabled ∧
          ∃ row, s.db.settings.get? userId = some row ∧ ¬ row.matchEnabled := by
  obtain ⟨s,reachable,passes⟩ := Sample.preferencesReached Sample.updatedAtOnce Sample.updatedInVain
    (by decide +kernel)
  unfold Sample.updatedInVain at passes
  split at passes
  next userId request data ended =>
    simp only [Bool.and_eq_true,Bool.not_eq_true'] at passes
    obtain ⟨⟨asked,on⟩,off⟩ := passes
    obtain ⟨row,found,off⟩ := (Option.any_eq_true _ _).mp off
    rcases (notificationSettings reachable).2.2.2 3 userId request _ ended with
      ⟨empty,_⟩ | ⟨shown,answered,_,_,stands⟩
    · rw [asked] at empty
      cases empty
    · cases answered
      exact ⟨s,userId,request,data,ended,stands,on,row,found,by simpa using off⟩
  next => cases passes

end Dalm
