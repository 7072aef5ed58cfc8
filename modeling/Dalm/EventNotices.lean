import Dalm.Fresh
import Dalm.Reachable

/-! The notifications of what happens to photos, matches and postcards. Each is written in the
commit of its event, so they are as many as the events were, and go to whom these concern. -/
namespace Dalm
open Relational

/-- Whom the notifications of a kind about something are for. -/
def recipients (type : NotificationType) (target : UUID) (rows : List Notification) : List UUID :=
  (rows.map Notification.letter).filterMap fun letter =>
    if letter.1 = type ∧ letter.2.1 = target then some letter.2.2 else none

section lists
variable {type : NotificationType} {target : UUID} {rows : List Notification} {row : Notification}

@[simp] theorem recipients_nil : recipients type target [] = [] := rfl

theorem recipients_append (others : List Notification) : recipients type target (rows ++ others) =
    recipients type target rows ++ recipients type target others := by
  unfold recipients
  rw [List.map_append,List.filterMap_append]

theorem recipients_cons (type : NotificationType) (target : UUID) (row : Notification)
    (rows : List Notification) : recipients type target (row :: rows) =
    (if row.type = type ∧ row.targetId = target then [row.userId] else []) ++
      recipients type target rows := by
  simp only [recipients,List.map_cons,List.filterMap_cons,Notification.letter]
  split
  next none_ => rw [if_neg fun holds => by simp [holds] at none_,List.nil_append]
  next user some_ =>
    split at some_
    next holds =>
      cases some_
      rw [if_pos holds,List.singleton_append]
    next => cases some_

theorem recipients_one : recipients type target [row] =
    if row.type = type ∧ row.targetId = target then [row.userId] else [] := by
  rw [recipients_cons,recipients_nil,List.append_nil]

theorem recipients_other {other : NotificationType} (different : other ≠ type)
    (all : ∀ row ∈ rows, row.type = other) : recipients type target rows = [] := by
  refine List.filterMap_eq_nil_iff.mpr fun letter member => ?_
  obtain ⟨row,inside,rfl⟩ := List.mem_map.mp member
  exact if_neg fun holds => different ((all row inside).symm.trans holds.1)

end lists

/-- The photo is in the queue of embeddings, as every photo that passed its validation is. -/
def Queued (db : Db) (p : UUID) : Prop := ∃ job ∈ db.embeddingJobs.rows, job.photoId = p

def Event.rejects (p : UUID) : Event → Bool
  | .photoRejected photo => photo = p
  | _ => false

def Event.expires (p : UUID) : Event → Bool
  | .photosExpired photos => photos.contains p
  | _ => false

/-- A worker's verdict against a photo, or its failure report. -/
def Request.rejects : Request → Bool
  | .validationResult _ result => result.status = .rejected
  | .validationFailure _ _ => true
  | _ => false

/-- The events that reject no photo and expire none. -/
def Event.isMild : Event → Bool
  | .photoRejected _ => false
  | .photosExpired _ => false
  | _ => true

/-- What a change notifies of: each kind of event, where it happens, and nothing else. -/
structure Announces (r : Request) (before after : Db) (events : List Event) (added : List Notification) :
    Prop where
  rows : after.notifications.rows = before.notifications.rows ++ added
  passed : ∀ p, (recipients .validationPassed p added = [] ∧ (Queued after p ↔ Queued before p)) ∨
    ∃ photo, after.photos.get? p = some photo ∧ photo.status = .searching ∧
      (∀ old, before.photos.get? p = some old → old.status = .validating) ∧
      recipients .validationPassed p added = [photo.userId] ∧ ¬ Queued before p ∧ Queued after p
  rejected : ∀ p, (recipients .photoRejected p added = [] ∧ events.any (Event.rejects p) = false ∧
      (hasStatus after p .rejected → hasStatus before p .rejected ∨ r.rejects = false)) ∨
    ∃ photo, before.photos.get? p = some photo ∧ photo.status = .validating ∧
      recipients .photoRejected p added = [photo.userId] ∧ events.any (Event.rejects p) = true ∧
      hasStatus after p .rejected ∧ r.rejects = true
  expired : ∀ p, (recipients .searchExpired p added = [] ∧ events.any (Event.expires p) = false ∧
      (hasStatus after p .expired → hasStatus before p .expired)) ∨
    ∃ photo, before.photos.get? p = some photo ∧ photo.status = .searching ∧
      recipients .searchExpired p added = [photo.userId] ∧ events.any (Event.expires p) = true ∧
      hasStatus after p .expired
  matched : ∀ m, (recipients .matched m added = [] ∧
      ∀ u, (after.participants.get? (m,u)).isSome = (before.participants.get? (m,u)).isSome) ∨
    ∃ u v, u ≠ v ∧ recipients .matched m added = [u,v] ∧ before.matches_.get? m = none ∧
      ∀ x, (after.participants.get? (m,x)).isSome ↔ x = u ∨ x = v ∨ (before.participants.get? (m,x)).isSome
  received : ∀ c, (recipients .postcardReceived c added = [] ∧
      (after.postcards.get? c).map Postcard.receiverId = (before.postcards.get? c).map Postcard.receiverId) ∨
    ∃ card, before.postcards.get? c = none ∧ after.postcards.get? c = some card ∧
      recipients .postcardReceived c added = [card.receiverId]

theorem filter_key {α β : Type} [DecidableEq β] {key : α → β} {rows : List α}
    (distinct : (rows.map key).Nodup) {row : α} (member : row ∈ rows) :
    rows.filter (fun other => key other = key row) = [row] := by
  induction rows with
  | nil => cases member
  | cons first rest ih =>
    obtain ⟨absent,distinct⟩ := List.nodup_cons.mp distinct
    rcases List.mem_cons.mp member with rfl | inside
    · have others : rest.filter (fun other => key other = key row) = [] := by
        refine List.filter_eq_nil_iff.mpr fun other there same => absent ?_
        exact of_decide_eq_true same ▸ List.mem_map_of_mem there
      rw [List.filter_cons,if_pos (decide_eq_true rfl),others]
    · have different : ¬ key first = key row := fun same => absent (same ▸ List.mem_map_of_mem inside)
      rw [List.filter_cons_of_neg (by simpa using different),ih distinct inside]

theorem any_expires {photos : List UUID} {p : UUID} :
    [Event.photosExpired photos].any (Event.expires p) = decide (p ∈ photos) := by
  simp [Event.expires]

section changes
variable {settings : Settings} {r : Request} {t : Nat} {held : List RowKey} {w : BackendWorld}
  {db before after : Db} {events : List Event}

theorem mild_events (events : List Event) (mild : ∀ event ∈ events, event.isMild = true) (p : UUID) :
    events.any (Event.rejects p) = false ∧ events.any (Event.expires p) = false := by
  constructor <;>
  · rw [List.any_eq_false]
    intro event member
    have silent := mild event member
    cases event with
    | photoRejected | photosExpired => simp [Event.isMild] at silent
    | _ => exact Bool.false_ne_true

/-- No photo becomes REJECTED or EXPIRED. -/
def Calm (before after : Db) : Prop :=
  ∀ p status, status = .rejected ∨ status = .expired → hasStatus after p status → hasStatus before p status

theorem calm_same (same : after.photos = before.photos) : Calm before after := by
  intro p status _ here
  unfold hasStatus at here
  rwa [same] at here

theorem hasStatus_modify {photos : Photos} {chosen : UUID → Bool} {assign : Photo → Photo} {keeps}
    {p : UUID} {status : PhotoStatus} (written : after.photos = photos.modify chosen assign keeps)
    (here : hasStatus after p status) : ∃ photo, photos.get? p = some photo ∧
      (photo.status = status ∨ (chosen p = true ∧ (assign photo).status = status)) := by
  obtain ⟨photo',found,same⟩ := here
  rw [written] at found
  obtain ⟨photo,present,rfl⟩ := Table.get?_modify_eq_some.mp found
  split at same
  next picked => exact ⟨photo,present,.inr ⟨picked,same⟩⟩
  next => exact ⟨photo,present,.inl same⟩

theorem calm_modify {chosen : UUID → Bool} {assign : Photo → Photo} {keeps}
    (written : after.photos = before.photos.modify chosen assign keeps)
    (others : ∀ photo, (assign photo).status = photo.status ∨
      ((assign photo).status ≠ .rejected ∧ (assign photo).status ≠ .expired)) : Calm before after := by
  intro p status kind here
  obtain ⟨photo,present,same | ⟨_,same⟩⟩ := hasStatus_modify written here
  · exact ⟨photo,present,same⟩
  · rcases others photo with kept | ⟨one,two⟩
    · exact ⟨photo,present,kept.symm.trans same⟩
    · rcases kind with rfl | rfl
      · exact absurd same one
      · exact absurd same two

theorem photos_released (db : Db) (cleared : List UUID) : (HomeRepository.released db cleared).photos =
    db.photos.modify (fun id => cleared.contains id) (fun row => {row with checksum := none})
      (fun _ => rfl) := rfl

/-- A registration brings a photo that is VALIDATING or SEARCHING. -/
theorem calm_created {arguments : HomeRepository.PhotoArguments} {mock : Bool} {cleared : List UUID}
    {start now : Time} {ids : Input}
    (written : HomeRepository.createWrites arguments mock cleared start now ids before = some (after,events)) :
    Calm before after := by
  intro p status kind here
  obtain ⟨fresh,_,_,_,same⟩ := HomeRepository.createWrites_photos written
  obtain ⟨photo,found,state⟩ := here
  rw [same] at found
  rcases Table.get?_insert_cases fresh found with ⟨_,rfl⟩ | present
  · cases mock <;> rcases kind with rfl | rfl <;> cases state
  · exact calm_modify (photos_released before cleared) (fun _ => .inl rfl) p status kind
      ⟨photo,present,state⟩

theorem queued_updateJob {queue : Queue} {id : UUID} {assign : Job → Job} {keeps}
    (photo : ∀ job, (assign job).photoId = job.photoId) (p : UUID) :
    Queued (before.updateJob queue id assign keeps) p ↔ Queued before p := by
  cases queue with
  | validation => exact Iff.rfl
  | embedding =>
    constructor
    · rintro ⟨job,member,same⟩
      obtain ⟨old,inside,rfl⟩ := List.mem_map.mp member
      refine ⟨old,inside,?_⟩
      split at same
      · exact (photo old).symm.trans same
      · exact same
    · rintro ⟨job,member,same⟩
      refine ⟨_,List.mem_map_of_mem member,?_⟩
      split
      · exact (photo job).trans same
      · exact same

theorem queued_insert {job : PhotoEmbeddingJob} {fresh}
    (written : after.embeddingJobs = before.embeddingJobs.insert job fresh) (p : UUID) :
    Queued after p ↔ Queued before p ∨ job.photoId = p := by
  unfold Queued
  rw [written,Table.rows_insert]
  simp only [List.mem_append,List.mem_singleton,or_and_right,exists_or,exists_eq_left]

theorem receiver_same (same : after.postcards.rows.map Postcard.envelope =
      before.postcards.rows.map Postcard.envelope) (c : UUID) :
    (after.postcards.get? c).map Postcard.receiverId = (before.postcards.get? c).map Postcard.receiverId := by
  have found : ∀ cards : Postcards, (cards.get? c).map Postcard.receiverId =
      ((cards.rows.map Postcard.envelope).find? fun card => card.id = c).map Postcard.receiverId := by
    intro cards
    rw [List.find?_map,Option.map_map]
    rfl
  rw [found,found,same]

theorem announces_quiet (rows : after.notifications = before.notifications)
    (queue : ∀ p, Queued after p ↔ Queued before p) (calm : Calm before after)
    (mild : ∀ event ∈ events, event.isMild = true)
    (seats : ∀ k, (after.participants.get? k).isSome = (before.participants.get? k).isSome)
    (cards : after.postcards.rows.map Postcard.envelope = before.postcards.rows.map Postcard.envelope) :
    Announces r before after events [] where
  rows := by rw [rows,List.append_nil]
  passed p := .inl ⟨rfl,queue p⟩
  rejected p := .inl ⟨rfl,(mild_events events mild p).1,fun here => .inl (calm p _ (.inl rfl) here)⟩
  expired p := .inl ⟨rfl,(mild_events events mild p).2,fun here => calm p _ (.inr rfl) here⟩
  matched m := .inl ⟨rfl,fun u => seats (m,u)⟩
  received c := .inl ⟨rfl,receiver_same cards c⟩

theorem announces_mock {arguments : HomeRepository.PhotoArguments} {cleared : List UUID}
    {start now : Time} {ids : Input}
    (written : HomeRepository.createWrites arguments true cleared start now ids before = some (after,events)) :
    ∃ added, Announces r before after events added := by
  have calm := calm_created written
  obtain ⟨_,rfl,unqueued,fresh,_,freshJob,_,same⟩ := HomeRepository.createWrites_mock written
  have mild := mild_events [Event.photoCreated arguments.photoId (ids.uuid 0) (some (ids.uuid 1))] (by simp [Event.isMild])
  refine ⟨[notification (ids.uuid 2) arguments.userId .validationPassed arguments.photoId start],
    by rw [same]; rfl,fun p => ?_,fun p => ?_,fun p => ?_,fun m => ?_,fun c => ?_⟩
  · have queued : Queued after p ↔ Queued before p ∨ _ := queued_insert (by rw [same]) p
    rcases eq_or_ne arguments.photoId p with rfl | other
    · refine .inr ⟨HomeRepository.newPhoto arguments true now,?_,rfl,fun old found => ?_,
        recipients_one.trans (if_pos ⟨rfl,rfl⟩),?_,queued.mpr (.inr rfl)⟩
      · rw [same]
        exact Table.get?_insert_self fresh
      · have present : ((HomeRepository.released before cleared).photos.get? arguments.photoId).isSome := by
          rw [photos_released,Table.isSome_get?_modify,found]
          rfl
        rw [show Table.get? _ arguments.photoId = none from fresh] at present
        cases present
      · rintro ⟨job,member,owner⟩
        exact unqueued job member owner.symm
    · refine .inl ⟨recipients_one.trans (if_neg fun holds => other holds.2),queued.trans (or_iff_left other)⟩
  · exact .inl ⟨rfl,(mild p).1,fun here => .inl (calm p _ (.inl rfl) here)⟩
  · exact .inl ⟨rfl,(mild p).2,calm p _ (.inr rfl)⟩
  · exact .inl ⟨rfl,fun u => by rw [same]; rfl⟩
  · exact .inl ⟨rfl,by rw [same]; rfl⟩

theorem announces_passed {id : UUID} {result : PhotoValidationRepository.Result} {photo : Photo}
    {start now : Time} {ids : Input} (owner : before.photos.get? photo.id = some photo)
    (validating : photo.status = .validating) (verdict : result.status = .passed)
    (written : PhotoValidationRepository.resultWrites id result photo start now ids before =
      some (after,events)) : ∃ added, Announces r before after events added := by
  obtain ⟨rfl,unqueued,freshJob,_,same⟩ := PhotoValidationRepository.resultWrites_passed verdict written
  have mild := mild_events [Event.job .validation id .closed,.photoPassed photo.id (ids.uuid 0)] (by simp [Event.isMild])
  have accepted : after.photos = before.photos.modify (fun p => p = photo.id)
      (PhotoValidationRepository.accept photo) (fun _ => rfl) := by rw [same]; rfl
  have calm : Calm before after :=
    calm_modify accepted fun row => .inr ⟨PhotoStatus.noConfusion,PhotoStatus.noConfusion⟩
  refine ⟨[notification (ids.uuid 1) photo.userId .validationPassed photo.id start],
    by rw [same]; rfl,fun p => ?_,fun p => ?_,fun p => ?_,fun m => ?_,fun c => ?_⟩
  · have queued : Queued after p ↔ Queued before p ∨ _ := queued_insert (by rw [same]) p
    rcases eq_or_ne photo.id p with rfl | other
    · refine .inr ⟨PhotoValidationRepository.accept photo photo,?_,rfl,fun old found => ?_,
        recipients_one.trans (if_pos ⟨rfl,rfl⟩),?_,queued.mpr (.inr rfl)⟩
      · rw [accepted]
        exact Table.get?_modify_eq_some.mpr ⟨photo,owner,(if_pos (decide_eq_true rfl)).symm⟩
      · cases Option.some.inj (owner.symm.trans found)
        exact validating
      · rintro ⟨job,member,same⟩
        exact unqueued job member same.symm
    · exact .inl ⟨recipients_one.trans (if_neg fun holds => other holds.2),queued.trans (or_iff_left other)⟩
  · exact .inl ⟨rfl,(mild p).1,fun here => .inl (calm p _ (.inl rfl) here)⟩
  · exact .inl ⟨rfl,(mild p).2,calm p _ (.inr rfl)⟩
  · exact .inl ⟨rfl,fun u => by rw [same]; rfl⟩
  · exact .inl ⟨rfl,by rw [same]; rfl⟩

theorem announces_rejected {id : UUID} {photo : Photo} {row : Notification}
    {code : Option String} {message : String} (reported : r.rejects = true)
    (owner : before.photos.get? photo.id = some photo) (validating : photo.status = .validating)
    (kind : row.type = .photoRejected ∧ row.targetId = photo.id ∧ row.userId = photo.userId)
    (told : events = [.job .validation id .closed,.photoRejected photo.id])
    (notices : after.notifications.rows = before.notifications.rows ++ [row])
    (photos : after.photos = before.photos.modify (fun p => p = photo.id)
      (PhotoValidationRepository.reject code message) (fun _ => rfl))
    (queue : after.embeddingJobs = before.embeddingJobs)
    (seats : after.participants = before.participants) (cards : after.postcards = before.postcards) :
    ∃ added, Announces r before after events added := by
  have other : ∀ type, type ≠ .photoRejected → ∀ target, recipients type target [row] = [] := by
    refine fun type different target => recipients_one.trans (if_neg fun holds => different ?_)
    exact holds.1.symm.trans kind.1
  have becomes : ∀ p status, hasStatus after p status → hasStatus before p status ∨
      (p = photo.id ∧ status = .rejected) := by
    intro p status here
    obtain ⟨old,present,same | ⟨picked,same⟩⟩ := hasStatus_modify photos here
    · exact .inl ⟨old,present,same⟩
    · exact .inr ⟨of_decide_eq_true picked,same.symm⟩
  refine ⟨[row],notices,fun p => ?_,fun p => ?_,fun p => ?_,fun m => ?_,fun c => ?_⟩
  · exact .inl ⟨other _ (by decide) p,by unfold Queued; rw [queue]⟩
  · subst told
    rcases eq_or_ne photo.id p with rfl | apart
    · refine .inr ⟨photo,owner,validating,recipients_one.trans ((if_pos ⟨kind.1,kind.2.1⟩).trans ?_),?_,?_,reported⟩
      · rw [kind.2.2]
      · simp [Event.rejects]
      · refine ⟨PhotoValidationRepository.reject code message photo,?_,rfl⟩
        rw [photos]
        exact Table.get?_modify_eq_some.mpr ⟨photo,owner,(if_pos (decide_eq_true rfl)).symm⟩
    · refine .inl ⟨recipients_one.trans (if_neg fun holds => apart (kind.2.1.symm.trans holds.2)),?_,?_⟩
      · simp [Event.rejects,apart]
      · exact fun here => .inl ((becomes p _ here).resolve_right fun holds => apart holds.1.symm)
  · refine .inl ⟨other _ (by decide) p,by subst told; rfl,fun here => ?_⟩
    exact (becomes p _ here).resolve_right fun holds => by cases holds.2
  · exact .inl ⟨other _ (by decide) m,fun u => by rw [seats]⟩
  · exact .inl ⟨other _ (by decide) c,by rw [cards]⟩

/-- A validation that times out rejects photos and is announced to nobody. -/
theorem announces_timedOut {chosen : UUID → Bool} (asked : r.rejects = false) {photos : List UUID} :
    Announces r before (before.updatePhotos chosen HomeRepository.timeOut) [.validationsTimedOut photos] [] := by
  have mild := mild_events [Event.validationsTimedOut photos] (by simp [Event.isMild])
  refine ⟨(List.append_nil _).symm,fun p => .inl ⟨rfl,Iff.rfl⟩,fun p => ?_,fun p => ?_,
    fun m => .inl ⟨rfl,fun _ => rfl⟩,fun c => .inl ⟨rfl,rfl⟩⟩
  · exact .inl ⟨rfl,(mild p).1,fun _ => .inr asked⟩
  · refine .inl ⟨rfl,(mild p).2,fun here => ?_⟩
    have written : (before.updatePhotos chosen HomeRepository.timeOut).photos =
      before.photos.modify chosen HomeRepository.timeOut (fun _ => rfl) := rfl
    obtain ⟨photo,present,same | ⟨_,same⟩⟩ := hasStatus_modify written here
    · exact ⟨photo,present,same⟩
    · cases same

theorem announces_expired {now start : Time} {rows : List ((_ : UUID) × Photo)} {ids : Input}
    (locked : lockedRows held before (SqlExpirationStore.isDue now) rows)
    (written : SqlExpirationStore.expireWrites rows start ids before = some (after,events))
    (distinct : (rows.map Sigma.fst).Nodup) : ∃ added, Announces r before after events added := by
  obtain ⟨added,notices,letters⟩ := SqlExpirationStore.expireWrites_notifies written
  obtain ⟨rfl,_,same⟩ := SqlExpirationStore.expireWrites_eq written
  have photos : after.photos = before.photos.modify (fun id => rows.any fun row => row.1 = id)
      (fun row => {row with status := .expired}) (fun _ => rfl) := by rw [same]; rfl
  have kind : ∀ row ∈ added, row.type = .searchExpired := by
    intro row member
    have letter := List.mem_map_of_mem (f := Notification.letter) member
    rw [letters] at letter
    obtain ⟨_,_,same⟩ := List.mem_map.mp letter
    exact (congrArg Prod.fst same).symm
  have becomes : ∀ p status, hasStatus after p status → hasStatus before p status ∨
      ((rows.any fun row => row.1 = p) = true ∧ status = .expired) := by
    intro p status here
    obtain ⟨old,present,same | ⟨picked,same⟩⟩ := hasStatus_modify photos here
    · exact .inl ⟨old,present,same⟩
    · exact .inr ⟨picked,same.symm⟩
  have listed : ∀ p, recipients .searchExpired p added =
      (rows.filter fun row => row.1 = p).map fun row => row.2.userId := by
    intro p
    unfold recipients
    rw [letters,List.filterMap_map,← List.filterMap_eq_map,List.filterMap_filter]
    refine List.filterMap_congr fun row member => ?_
    have key : row.2.id = row.1 := Table.key_of_get? (locked row member).2.1
    simp [key]
  refine ⟨added,notices,fun p => ?_,fun p => ?_,fun p => ?_,fun m => ?_,fun c => ?_⟩
  · exact .inl ⟨recipients_other (by decide) kind,by rw [same]; rfl⟩
  · refine .inl ⟨recipients_other (by decide) kind,rfl,fun here => ?_⟩
    exact .inl ((becomes p _ here).resolve_right fun holds => by cases holds.2)
  · by_cases picked : ∃ row ∈ rows, row.1 = p
    · obtain ⟨row,member,rfl⟩ := picked
      obtain ⟨_,present,due⟩ := locked row member
      have single : (rows.filter fun other => other.1 = row.1) = [row] := filter_key distinct member
      refine .inr ⟨row.2,present,(of_decide_eq_true due).1,by rw [listed,single]; rfl,?_,?_⟩
      · exact any_expires.trans (decide_eq_true (List.mem_map_of_mem member))
      · refine ⟨{row.2 with status := .expired},?_,rfl⟩
        rw [photos]
        refine Table.get?_modify_eq_some.mpr ⟨row.2,present,(if_pos ?_).symm⟩
        exact List.any_eq_true.mpr ⟨row,member,decide_eq_true rfl⟩
    · have outside : ∀ row ∈ rows, row.1 ≠ p := fun row member same => picked ⟨row,member,same⟩
      refine .inl ⟨?_,?_,fun here => ?_⟩
      · rw [listed,List.filter_eq_nil_iff.mpr fun row member => by simpa using outside row member]
        rfl
      · refine any_expires.trans (decide_eq_false fun inside => ?_)
        obtain ⟨row,member,same⟩ := List.mem_map.mp inside
        exact outside row member same
      · refine (becomes p _ here).resolve_right fun holds => ?_
        obtain ⟨row,member,same⟩ := List.any_eq_true.mp holds.1
        exact outside row member (of_decide_eq_true same)
  · exact .inl ⟨recipients_other (by decide) kind,fun u => by rw [same]; rfl⟩
  · exact .inl ⟨recipients_other (by decide) kind,by rw [same]; rfl⟩

theorem announces_matched {first second : Photo} {explanation : List Char} {now start : Time} {ids : Input}
    (apart : first.userId ≠ second.userId)
    (written : SqlMatchFinalizationStore.finalizeWrites first second explanation now start ids before =
      some (after,events)) : ∃ added, Announces r before after events added := by
  have notices := SqlMatchFinalizationStore.finalizeWrites_notifies written
  obtain ⟨rfl,freshMatch,freshFirst,freshSecond,_,same⟩ := SqlMatchFinalizationStore.finalizeWrites_eq written
  have mild := mild_events [Event.matched (ids.uuid 0) first.id second.id now] (by simp [Event.isMild])
  have photos : after.photos = before.photos.modify (fun id => id = first.id ∨ id = second.id)
      (fun row => {row with status := .matched}) (fun _ => rfl) := by rw [same]; rfl
  have calm : Calm before after :=
    calm_modify photos fun row => .inr ⟨PhotoStatus.noConfusion,PhotoStatus.noConfusion⟩
  have seats : ∀ m x, (after.participants.get? (m,x)).isSome ↔
      (ids.uuid 0,second.userId) = (m,x) ∨ (ids.uuid 0,first.userId) = (m,x) ∨
        (before.participants.get? (m,x)).isSome := by
    intro m x
    rw [same]
    change ((Table.insert _ _ freshSecond).get? (m,x)).isSome ↔ _
    rw [Table.get?_insert,Table.get?_insert]
    change ((if (ids.uuid 0,second.userId) = (m,x) then _ else
      if (ids.uuid 0,first.userId) = (m,x) then _ else _ : Option MatchParticipant).isSome) ↔ _
    split
    next yes => simp [yes]
    next no =>
      split
      next yes => simp [yes]
      next no' => simp [no,no']
  have kind : ∀ row ∈ [notification (ids.uuid 1) first.userId .matched (ids.uuid 0) start,
      notification (ids.uuid 2) second.userId .matched (ids.uuid 0) start], row.type = .matched := by
    intro row member
    rcases List.mem_pair.mp member with rfl | rfl <;> rfl
  refine ⟨_,notices,fun p => ?_,fun p => ?_,fun p => ?_,fun m => ?_,fun c => ?_⟩
  · exact .inl ⟨recipients_other (by decide) kind,by rw [same]; rfl⟩
  · exact .inl ⟨recipients_other (by decide) kind,(mild p).1,fun here => .inl (calm p _ (.inl rfl) here)⟩
  · exact .inl ⟨recipients_other (by decide) kind,(mild p).2,calm p _ (.inr rfl)⟩
  · have sent := recipients_cons .matched m
      (notification (ids.uuid 1) first.userId .matched (ids.uuid 0) start)
      [notification (ids.uuid 2) second.userId .matched (ids.uuid 0) start]
    rw [recipients_one] at sent
    rcases eq_or_ne (ids.uuid 0) m with rfl | other
    · rw [if_pos ⟨rfl,rfl⟩,if_pos ⟨rfl,rfl⟩] at sent
      refine .inr ⟨first.userId,second.userId,apart,sent,freshMatch,fun x => ?_⟩
      rw [seats]
      simp only [Prod.mk.injEq,true_and]
      grind
    · rw [if_neg fun holds => other holds.2,if_neg fun holds => other holds.2] at sent
      refine .inl ⟨sent,fun x => ?_⟩
      rw [Bool.eq_iff_iff,seats]
      simp [other]
  · exact .inl ⟨recipients_other (by decide) kind,by rw [same]; rfl⟩

theorem announces_sent {draft : PostcardRepository.Draft} {receiverId : UUID} {start : Time} {ids : Input}
    (written : PostcardRepository.sendWrites draft receiverId start ids before = some (after,events)) :
    ∃ added, Announces r before after events added := by
  obtain ⟨rfl,fresh,_,same⟩ := PostcardRepository.sendWrites_eq written
  have mild := mild_events [Event.sent draft.matchId (ids.uuid 0) draft.userId] (by simp [Event.isMild])
  have calm : Calm before after := calm_same (by rw [same])
  refine ⟨[notification (ids.uuid 1) receiverId .postcardReceived (ids.uuid 0) start],
    by rw [same]; rfl,fun p => ?_,fun p => ?_,fun p => ?_,fun m => ?_,fun c => ?_⟩
  · exact .inl ⟨rfl,by rw [same]; rfl⟩
  · exact .inl ⟨rfl,(mild p).1,fun here => .inl (calm p _ (.inl rfl) here)⟩
  · exact .inl ⟨rfl,(mild p).2,calm p _ (.inr rfl)⟩
  · exact .inl ⟨rfl,fun u => by rw [same]⟩
  · rcases eq_or_ne (ids.uuid 0) c with rfl | other
    · refine .inr ⟨PostcardRepository.newPostcard draft receiverId start ids,fresh,?_,
        recipients_one.trans (if_pos ⟨rfl,rfl⟩)⟩
      rw [same]
      exact Table.get?_insert_self fresh
    · refine .inl ⟨recipients_one.trans (if_neg fun holds => other holds.2),?_⟩
      rw [same]
      change ((Table.insert _ _ fresh).get? c).map Postcard.receiverId = _
      rw [Table.get?_insert]
      exact congrArg _ (if_neg other)

private theorem seats_hidden {matchId userId : UUID} {now : Time} (k : UUID × UUID) :
    ((before.hideParticipant matchId userId now).participants.get? k).isSome =
      (before.participants.get? k).isSome := Table.isSome_get?_modify k

theorem Change.announces (change : Change settings r t held w db events) :
    ∃ added, Announces r w.db db events added := by
  have cards := change.steady.cards
  cases change with
  | @observed event observation =>
    refine ⟨[],announces_quiet rfl (fun _ => Iff.rfl) (calm_same rfl) ?_ (fun _ => rfl) rfl⟩
    intro other member
    cases List.mem_singleton.mp member
    cases event <;> simp [Event.isObservation] at observation <;> rfl
  | timedOut asked locked =>
    have other : r.rejects = false := by cases r <;> first | rfl | cases asked
    exact ⟨[],announces_timedOut other⟩
  | @deleted _ photoId now _ asked locked present accepted =>
    have photos : (w.db.updatePhoto photoId fun row =>
        {row with status := .deleted,deletedAt := some now}).photos =
      w.db.photos.modify (fun p => p = photoId)
        (fun row => {row with status := .deleted,deletedAt := some now}) (fun _ => rfl) := rfl
    have calm := calm_modify photos fun _ => .inr ⟨PhotoStatus.noConfusion,PhotoStatus.noConfusion⟩
    exact ⟨[],announces_quiet rfl (fun _ => Iff.rfl) calm (by simp [Event.isMild]) (fun _ => rfl) rfl⟩
  | unblocked | account =>
    exact ⟨[],announces_quiet rfl (fun _ => Iff.rfl) (calm_same rfl) (by simp [Event.isMild])
      (fun _ => rfl) rfl⟩
  | postcardRead =>
    have same := cards.resolve_right (by simp)
    exact ⟨[],announces_quiet rfl (fun _ => Iff.rfl) (calm_same rfl) (by simp [Event.isMild])
      (fun _ => rfl) same⟩
  | @postcardDeleted _ _ _ side =>
    have same := cards.resolve_right (by simp)
    refine ⟨[],announces_quiet ?_ (fun _ => ?_) (calm_same ?_) (by simp [Event.isMild]) (fun _ => ?_) same⟩ <;>
      cases side <;> rfl
  | abandoned | handed | retried | embeddingFailed =>
    exact ⟨[],announces_quiet (by simp) (queued_updateJob fun _ => rfl) (calm_same (by simp))
      (by simp [Event.isMild]) (by simp) (by simp)⟩
  | @created arguments mock cleared _ _ _ _ _ asked onboarded locked written =>
    cases mock with
    | false =>
      have calm := calm_created written
      obtain ⟨_,rfl,_,_,rfl⟩ := HomeRepository.createWrites_plain written
      exact ⟨[],announces_quiet rfl (fun _ => Iff.rfl) calm (by simp [Event.isMild]) (fun _ => rfl) rfl⟩
    | true => exact announces_mock written
  | @judged _ result _ photo _ _ _ _ _ asked locked present owned owner accepted written =>
    have own := Table.key_of_get? owner
    rw [← own] at owner
    cases verdict : result.status with
    | passed => exact announces_passed owner accepted verdict written
    | rejected =>
      obtain ⟨told,_,rfl⟩ := PhotoValidationRepository.resultWrites_rejected verdict written
      exact announces_rejected (by rw [asked]; exact decide_eq_true verdict) owner accepted ⟨rfl,rfl,rfl⟩ told rfl rfl rfl rfl rfl
  | @validationFailed _ report _ photo _ _ _ _ _ asked locked present owned owner written =>
    have own := Table.key_of_get? owner
    rw [← own] at owner
    by_cases validating : photo.status = .validating
    · obtain ⟨told,_,rfl⟩ := PhotoValidationRepository.failureWrites_validating validating written
      exact announces_rejected (by rw [asked]; rfl) owner validating ⟨rfl,rfl,rfl⟩ told rfl rfl rfl rfl rfl
    · obtain ⟨rfl,rfl⟩ := PhotoValidationRepository.failureWrites_other validating written
      exact ⟨[],announces_quiet (by simp) (queued_updateJob fun _ => rfl) (calm_same (by simp))
        (by simp [Event.isMild]) (by simp) (by simp)⟩
  | embedded asked locked present owned written =>
    obtain ⟨rfl,_,rfl⟩ := PhotoEmbeddingJobRepository.resultWrites_eq written
    exact ⟨[],announces_quiet (by simp) (queued_updateJob fun _ => rfl) (calm_same (by simp))
      (by simp [Event.isMild]) (by simp) (by simp)⟩
  | expired asked locked written distinct => exact announces_expired locked written distinct
  | matched asked locked present apart searching timely checked written =>
    exact announces_matched apart.2 written
  | blocked asked written =>
    obtain ⟨rfl,_,rfl⟩ := SafetyRepository.blockWrites_eq written
    exact ⟨[],announces_quiet rfl (fun _ => Iff.rfl) (calm_same rfl) (by simp [Event.isMild])
      (fun _ => rfl) rfl⟩
  | reportedUser asked written =>
    rcases ReportRepository.reportUserWrites_eq written with ⟨_,rfl,rfl⟩ | ⟨_,_,rfl,rfl⟩ <;>
      exact ⟨[],announces_quiet rfl (fun _ => Iff.rfl) (calm_same rfl) (by simp [Event.isMild])
        (fun _ => rfl) rfl⟩
  | @reportedPhoto _ _ own _ _ _ asked locked written =>
    obtain ⟨rfl,_,rfl⟩ := ReportRepository.reportPhotoWrites_eq written
    cases own with
    | none =>
      exact ⟨[],announces_quiet rfl (fun _ => Iff.rfl) (calm_same rfl) (by simp [Event.isMild])
        (fun _ => rfl) rfl⟩
    | some row =>
      exact ⟨[],announces_quiet rfl (fun _ => Iff.rfl) (calm_same rfl) (by simp [Event.isMild])
        seats_hidden rfl⟩
  | sent asked pair locked parties turn reply written => exact announces_sent written

/-- What the notifications say is what the database and the history say. -/
structure Notified (w : BackendWorld) : Prop where
  passed : ∀ p, (recipients .validationPassed p w.db.notifications.rows = [] ∧ ¬ Queued w.db p) ∨
    ∃ photo, w.db.photos.get? p = some photo ∧
      recipients .validationPassed p w.db.notifications.rows = [photo.userId] ∧ Queued w.db p
  rejected : ∀ p, (recipients .photoRejected p w.db.notifications.rows = [] ∧
      w.log.any (fun entry => entry.2.rejects p) = false) ∨
    ∃ photo, w.db.photos.get? p = some photo ∧ (photo.status = .rejected ∨ photo.status = .deleted) ∧
      recipients .photoRejected p w.db.notifications.rows = [photo.userId] ∧
      w.log.any (fun entry => entry.2.rejects p) = true ∧ ¬ Queued w.db p
  expired : ∀ p, (recipients .searchExpired p w.db.notifications.rows = [] ∧
      w.log.any (fun entry => entry.2.expires p) = false ∧ ¬ hasStatus w.db p .expired) ∨
    ∃ photo, w.db.photos.get? p = some photo ∧ (photo.status = .expired ∨ photo.status = .deleted) ∧
      recipients .searchExpired p w.db.notifications.rows = [photo.userId] ∧
      w.log.any (fun entry => entry.2.expires p) = true
  matched : ∀ m, (recipients .matched m w.db.notifications.rows).Nodup ∧
    ∀ u, u ∈ recipients .matched m w.db.notifications.rows ↔ (w.db.participants.get? (m,u)).isSome
  received : ∀ c, recipients .postcardReceived c w.db.notifications.rows =
    ((w.db.postcards.get? c).map Postcard.receiverId).toList

theorem notified_launch (users : Table User.id) : Notified (launch users).world where
  passed p := .inl ⟨rfl,fun ⟨_,member,_⟩ => by cases member⟩
  rejected p := .inl ⟨rfl,rfl⟩
  expired p := .inl ⟨rfl,rfl,fun ⟨_,found,_⟩ => by cases found⟩
  matched m := ⟨List.nodup_nil,fun u => iff_of_false List.not_mem_nil (by exact Bool.false_ne_true)⟩
  received c := rfl

section steps
variable {added : List Notification}

theorem any_record {f : Event → Bool} : ((World.mk db w.log).record t events).log.any (fun entry => f entry.2) =
    (w.log.any (fun entry => f entry.2) || events.any f) := by
  rw [World.log_record,List.any_append,List.any_map]
  rfl

/-- A photo that was rejected, or that expired, is so still or was deleted. -/
theorem Change.stays_final {p : UUID} {photo : Photo} {status : PhotoStatus}
    (change : Change settings r t held w db events) (found : w.db.photos.get? p = some photo)
    (kind : status = .rejected ∨ status = .expired) (final : photo.status = status ∨ photo.status = .deleted) :
    ∃ photo', db.photos.get? p = some photo' ∧ photo'.userId = photo.userId ∧
      (photo'.status = status ∨ photo'.status = .deleted) := by
  obtain ⟨photo',after,_,follows⟩ := change.photo found
  refine ⟨photo',after,follows.owner,?_⟩
  rcases follows.status with same | moves
  · rwa [same]
  · rcases final with same | same <;> rw [same] at moves
    · rcases kind with rfl | rfl <;> cases moved : photo'.status <;> rw [moved] at moves <;>
        first | exact .inr rfl | cases moves
    · cases moves

variable (inv : Inv settings w) (notified : Notified w) (change : Change settings r t held w db events)
  (announces : Announces r w.db db events added)
include notified announces

include change in
theorem notified_passed (p : UUID) :
    (recipients .validationPassed p db.notifications.rows = [] ∧ ¬ Queued db p) ∨
      ∃ photo, db.photos.get? p = some photo ∧
        recipients .validationPassed p db.notifications.rows = [photo.userId] ∧ Queued db p := by
  rw [announces.rows,recipients_append]
  rcases announces.passed p with ⟨none_,queue⟩ | ⟨photo,found,_,_,sent,unqueued,queued⟩
  · rw [none_,List.append_nil,queue]
    refine (notified.passed p).imp id ?_
    rintro ⟨photo,found,sent,queued⟩
    obtain ⟨photo',after,_,follows⟩ := change.photo found
    exact ⟨photo',after,follows.owner ▸ sent,queued⟩
  · rcases notified.passed p with ⟨before,_⟩ | ⟨_,_,_,before⟩
    · exact .inr ⟨photo,found,by rw [before,sent]; rfl,queued⟩
    · exact absurd before unqueued

include inv change in
theorem notified_rejected (p : UUID) :
    (recipients .photoRejected p db.notifications.rows = [] ∧
      (w.log.any (fun entry => entry.2.rejects p) || events.any (Event.rejects p)) = false) ∨
    ∃ photo, db.photos.get? p = some photo ∧ (photo.status = .rejected ∨ photo.status = .deleted) ∧
      recipients .photoRejected p db.notifications.rows = [photo.userId] ∧
      (w.log.any (fun entry => entry.2.rejects p) || events.any (Event.rejects p)) = true ∧
      ¬ Queued db p := by
  rw [announces.rows,recipients_append]
  rcases announces.rejected p with ⟨none_,silent,_⟩ | ⟨photo,found,validating,sent,told,rejected,_⟩
  · rw [none_,List.append_nil,silent,Bool.or_false]
    refine (notified.rejected p).imp id ?_
    rintro ⟨photo,found,final,sent,told,unqueued⟩
    obtain ⟨photo',after,owner,still⟩ := change.stays_final found (.inl rfl) final
    refine ⟨photo',after,still,owner ▸ sent,told,fun queued => ?_⟩
    rcases announces.passed p with ⟨_,queue⟩ | ⟨_,_,_,fresh,_⟩
    · exact unqueued (queue.mp queued)
    · rw [fresh photo found] at final
      rcases final with wrong | wrong <;> cases wrong
  · obtain ⟨photo',after,status⟩ := rejected
    have owner : photo'.userId = photo.userId := by
      obtain ⟨other,after',_,follows⟩ := change.photo found
      cases Option.some.inj (after.symm.trans after')
      exact follows.owner
    have before : recipients .photoRejected p w.db.notifications.rows = [] := by
      rcases notified.rejected p with ⟨before,_⟩ | ⟨other,found',final,_⟩
      · exact before
      · cases Option.some.inj (found.symm.trans found')
        rw [validating] at final
        rcases final with wrong | wrong <;> cases wrong
    refine .inr ⟨photo',after,.inl status,by rw [before,sent,owner]; rfl,by rw [told,Bool.or_true],?_⟩
    intro queued
    rcases announces.passed p with ⟨_,queue⟩ | ⟨other,found',searching,_⟩
    · obtain ⟨job,member,same⟩ := queue.mp queued
      have key := Table.key_of_get? found
      rw [← key] at found
      exact unembedded_of_validating inv found validating job member (key.trans same.symm)
    · cases Option.some.inj (after.symm.trans found')
      rw [status] at searching
      cases searching

include change in
theorem notified_expired (p : UUID) :
    (recipients .searchExpired p db.notifications.rows = [] ∧
      (w.log.any (fun entry => entry.2.expires p) || events.any (Event.expires p)) = false ∧
      ¬ hasStatus db p .expired) ∨
    ∃ photo, db.photos.get? p = some photo ∧ (photo.status = .expired ∨ photo.status = .deleted) ∧
      recipients .searchExpired p db.notifications.rows = [photo.userId] ∧
      (w.log.any (fun entry => entry.2.expires p) || events.any (Event.expires p)) = true := by
  rw [announces.rows,recipients_append]
  rcases announces.expired p with ⟨none_,silent,still⟩ | ⟨photo,found,searching,sent,told,expired⟩
  · rw [none_,List.append_nil,silent,Bool.or_false]
    refine (notified.expired p).imp (fun ⟨one,two,three⟩ => ⟨one,two,fun here => three (still here)⟩) ?_
    rintro ⟨photo,found,final,sent,told⟩
    obtain ⟨photo',after,owner,still⟩ := change.stays_final found (.inr rfl) final
    exact ⟨photo',after,still,owner ▸ sent,told⟩
  · obtain ⟨photo',after,status⟩ := expired
    have owner : photo'.userId = photo.userId := by
      obtain ⟨other,after',_,follows⟩ := change.photo found
      cases Option.some.inj (after.symm.trans after')
      exact follows.owner
    have before : recipients .searchExpired p w.db.notifications.rows = [] := by
      rcases notified.expired p with ⟨before,_⟩ | ⟨other,found',final,_⟩
      · exact before
      · cases Option.some.inj (found.symm.trans found')
        rw [searching] at final
        rcases final with wrong | wrong <;> cases wrong
    exact .inr ⟨photo',after,.inl status,by rw [before,sent,owner]; rfl,by rw [told,Bool.or_true]⟩

include inv in
theorem notified_matched (m : UUID) : (recipients .matched m db.notifications.rows).Nodup ∧
    ∀ u, u ∈ recipients .matched m db.notifications.rows ↔ (db.participants.get? (m,u)).isSome := by
  obtain ⟨distinct,seated⟩ := notified.matched m
  rw [announces.rows,recipients_append]
  rcases announces.matched m with ⟨none_,same⟩ | ⟨u,v,apart,sent,fresh,seats⟩
  · rw [none_,List.append_nil]
    exact ⟨distinct,fun u => (seated u).trans (by rw [same])⟩
  · have nobody : ∀ x, ¬ (w.db.participants.get? (m,x)).isSome := by
      intro x present
      obtain ⟨row,found⟩ := Option.isSome_iff_exists.mp present
      have there := (inv.matches_.participant m x row found).1
      rw [fresh] at there
      cases there
    have before : recipients .matched m w.db.notifications.rows = [] :=
      List.eq_nil_iff_forall_not_mem.mpr fun x member => nobody x ((seated x).mp member)
    rw [before,sent,List.nil_append]
    refine ⟨by simpa using apart,fun x => ?_⟩
    rw [seats,List.mem_pair]
    simp [nobody x]

theorem notified_received (c : UUID) : recipients .postcardReceived c db.notifications.rows =
    ((db.postcards.get? c).map Postcard.receiverId).toList := by
  rw [announces.rows,recipients_append,notified.received]
  rcases announces.received c with ⟨none_,same⟩ | ⟨card,absent,found,sent⟩
  · rw [none_,same,List.append_nil]
  · rw [absent,found,sent]
    rfl

end steps

theorem Change.notified (inv : Inv settings w) (notified : Notified w)
    (change : Change settings r t held w db events) :
    Notified ((World.mk db w.log).record t events) := by
  obtain ⟨added,announces⟩ := change.announces
  refine ⟨notified_passed notified change announces,fun p => ?_,fun p => ?_,
    notified_matched inv notified announces,notified_received notified announces⟩
  · rw [any_record]
    exact notified_rejected inv notified change announces p
  · rw [any_record]
    exact notified_expired notified change announces p

end changes
end Dalm
