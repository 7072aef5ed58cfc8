import Dalm.Notifications
import Dalm.Reachable
import Dalm.Today
import Dalm.Relational.Alone

/-! What a user does for himself alone: hiding a match, looking at it, reading and deleting his
postcards, reading his notifications and reporting a photo. Nobody else is shown anything else for it,
but the sender of a postcard that it was read. -/
namespace Dalm
open Relational Txn PostcardRepository HomeRepository

inductive PersonalAction where
  | updateMatchVisibility (matchId : UUID) (hidden : Bool)
  | markMatchViewed (matchId : UUID)
  | readPostcard (postcardId : UUID)
  | deletePostcard (postcardId : UUID)
  | readNotification (notificationId : UUID)
  | readNotifications
  | reportPhoto (photoId : UUID) (reasonCode : String) (detail : Option String)

def PersonalAction.program (userId : UUID) : PersonalAction → App Unit
  | .updateMatchVisibility matchId hidden => do
    let _ ← HomeRepository.updateMatchVisibility userId matchId hidden
    return ()
  | .markMatchViewed matchId => do
    let _ ← HomeRepository.markMatchViewed userId matchId
    return ()
  | .readPostcard postcardId => do
    let _ ← PostcardRepository.markRead userId postcardId
    return ()
  | .deletePostcard postcardId => PostcardRepository.delete userId postcardId
  | .readNotification notificationId => do
    let _ ← NotificationRepository.markRead userId notificationId
    return ()
  | .readNotifications => NotificationRepository.markAllRead userId
  | .reportPhoto photoId reasonCode detail =>
    ReportRepository.create ⟨userId,.photo,photoId,reasonCode,detail⟩

/-- An action as it is taken: its session and what the environment supplies to it. -/
structure Act where
  session : Nat
  inputs : Nat → Input
  action : PersonalAction

/-- The world after an act of a user. -/
def Act.apply (userId : UUID) (w : BackendWorld) (act : Act) : BackendWorld :=
  (alone act.session act.inputs (act.action.program userId) 0 w).world

/-- The columns of a participant that others see. -/
def seat (row : MatchParticipant) : MatchParticipant := {row with viewedAt := none,hiddenAt := none}

theorem seat_key (row : MatchParticipant) :
    ((seat row).matchId,(seat row).userId) = (row.matchId,row.userId) := rfl

section views
variable (v : UUID)

/-- What a postcard is to a user: the other's copy may be gone, and the other may have read it. -/
def cover (card : Postcard) : Postcard :=
  {card with
    readAt := if card.receiverId = v then card.readAt else none
    senderDeletedAt := if card.senderId = v then card.senderDeletedAt else none
    receiverDeletedAt := if card.receiverId = v then card.receiverDeletedAt else none}

theorem cover_id (card : Postcard) : (cover v card).id = card.id := rfl

/-- The database without what is for others alone. -/
def shownTo (db : Db) : Db :=
  {db with
    participants := db.participants.modify (fun key => key.2 ≠ v) seat seat_key
    postcards := db.postcards.modify (fun _ => true) (cover v) (cover_id v)
    notifications := db.notifications.restrict fun row => row.userId = v
    reports := db.reports.restrict fun row => row.reporterId = v}

/-- A postcard as shown, but for the time the other read it. -/
def unread (row : PostcardRow) : PostcardRow :=
  {row with readAt := if row.receiverId = v then row.readAt else none}

end views

section lists
variable {α : Type} {p : α → Bool} {f : α → α}

theorem filter_map_kept (same : ∀ a, p (f a) = p a) (kept : ∀ a, p a = true → f a = a) (l : List α) :
    (l.map f).filter p = l.filter p := by
  have through : p ∘ f = p := funext same
  rw [List.filter_map,through]
  exact (List.map_congr_left fun a member => kept a (List.mem_filter.mp member).2).trans (List.map_id _)

theorem filter_map_through (same : ∀ a, p (f a) = p a) (l : List α) :
    (l.map f).filter p = (l.filter p).map f := by
  have through : p ∘ f = p := funext same
  rw [List.filter_map,through]

theorem outer_map {β γ : Type} (g : β → γ) (l : List β) : outer (l.map g) = (outer l).map (Option.map g) := by
  cases l <;> simp [outer]

end lists

section reads
variable (v : UUID) (db : Db)

theorem shown_participants : (shownTo v db).participants.rows =
    db.participants.rows.map fun row => if row.userId ≠ v then seat row else row := by
  simp [shownTo]

theorem shown_own (q : MatchParticipant → Bool) :
    (shownTo v db).participants.rows.filter (fun row => q row ∧ row.userId = v) =
      db.participants.rows.filter fun row => q row ∧ row.userId = v := by
  rw [shown_participants]
  refine filter_map_kept (fun row => ?_) (fun row own => ?_) _
  · by_cases own : row.userId = v
    · simp [own]
    · simp [own,seat]
  · have own : row.userId = v := (of_decide_eq_true own).2
    simp [own]

theorem shown_seat (m : UUID) : (shownTo v db).participants.get? (m,v) = db.participants.get? (m,v) := by
  simp [shownTo,Table.get?_modify]

theorem shown_partners (m : UUID) : partners v m (shownTo v db) = (partners v m db).map seat := by
  unfold partners
  rw [shown_participants,filter_map_through fun row => by by_cases own : row.userId = v <;> simp [own,seat]]
  refine List.map_congr_left fun row member => ?_
  have other : row.userId ≠ v := (of_decide_eq_true (List.mem_filter.mp member).2).2
  rw [if_pos other]

theorem shown_postcards : (shownTo v db).postcards.rows = db.postcards.rows.map (cover v) := rfl

theorem shown_lastSender (m : UUID) : lastSender m (shownTo v db) = lastSender m db := by
  unfold lastSender
  rw [shown_postcards,filter_map_through (f := cover v) fun card => rfl,← List.map_insertionSort (r := sentLater) (s := sentLater) (cover v) _
    fun a _ b _ => Iff.rfl,List.head?_map,Option.map_map]
  rfl

theorem shown_momentColumns (photo : Photo) : momentColumns v (shownTo v db) photo = momentColumns v db photo := by
  unfold momentColumns
  have own := shown_own v db fun row => row.photoId = photo.id
  simp only [decide_eq_true_eq] at own
  rw [own]
  congr 1
  funext participant
  cases participant with
  | none => rfl
  | some participant =>
    simp only [shown_partners,shown_lastSender,outer_map,List.bind_eq_flatMap,List.flatMap_map]
    congr 1
    funext partner
    cases partner <;> rfl

theorem shown_momentRows {chosen : MomentQuery} (own : chosen.userId = v) (cursor : Option Cursor) :
    momentRows chosen cursor (shownTo v db) = momentRows chosen cursor db := by
  unfold momentRows
  rw [own]
  simp only [shown_momentColumns]
  rfl

theorem shown_countedStatuses (today : Date) (excludeToday : Bool) :
    countedStatuses v today excludeToday (shownTo v db) = countedStatuses v today excludeToday db := by
  unfold countedStatuses
  congr 1
  funext photo
  have own := shown_own v db fun row => row.photoId = photo.id
  simp only [decide_eq_true_eq] at own
  rw [own]

theorem shown_matchDetails (m : UUID) : matchDetails v m (shownTo v db) = matchDetails v m db := by
  unfold matchDetails
  congr 1
  funext match_
  rw [shown_seat]
  congr 1
  funext mine
  simp only [shown_partners,shown_lastSender,List.bind_eq_flatMap,List.flatMap_map]
  rfl

/-- A match card without what is for the partner alone. -/
def HomeRepository.CardColumns.covered (row : CardColumns) : CardColumns := {row with partner := seat row.partner}

theorem shown_cardColumns : cardColumns v (shownTo v db) = (cardColumns v db).map CardColumns.covered := by
  unfold cardColumns
  have own := shown_own v db fun _ => true
  simp only [true_and] at own
  rw [own]
  simp only [shown_partners,List.bind_eq_flatMap,List.flatMap_map,List.map_flatMap]
  rfl

theorem shown_reports (q : Report → Bool) : (shownTo v db).reports.rows.any (fun report =>
      report.reporterId = v ∧ q report) = db.reports.rows.any fun report => report.reporterId = v ∧ q report := by
  simp only [shownTo,Table.rows_restrict,List.any_filter]
  congr 1
  funext report
  by_cases own : report.reporterId = v <;> simp [own]

theorem shown_isUnviewed (today : Date) (row : CardColumns) :
    isUnviewed v today (shownTo v db) row.covered = isUnviewed v today db row := by
  have reports := shown_reports v db fun report =>
    (report.targetType = .photo ∧ report.targetId = row.partner.photoId) ∨
      (report.targetType = .user ∧ report.targetId = row.partner.userId)
  simp only [decide_eq_true_eq] at reports
  unfold isUnviewed
  rw [← reports]
  rfl

theorem shown_unviewed (today : Date) :
    (cardColumns v (shownTo v db)).filter (isUnviewed v today (shownTo v db)) =
      ((cardColumns v db).filter (isUnviewed v today db)).map CardColumns.covered := by
  rw [shown_cardColumns,List.filter_map]
  congr 2
  exact funext fun row => shown_isUnviewed v db today row

theorem shown_unviewedCount (today : Date) :
    ((cardColumns v (shownTo v db)).filter (isUnviewed v today (shownTo v db))).length =
      ((cardColumns v db).filter (isUnviewed v today db)).length := by
  rw [shown_unviewed,List.length_map]

theorem shown_firstUnviewed (today : Date) :
    ((((cardColumns v (shownTo v db)).filter (isUnviewed v today (shownTo v db))).insertionSort
      matchedEarlier).head?).map CardColumns.row =
      ((((cardColumns v db).filter (isUnviewed v today db)).insertionSort matchedEarlier).head?).map
        CardColumns.row := by
  rw [shown_unviewed,← List.map_insertionSort (r := matchedEarlier) (s := matchedEarlier)
    CardColumns.covered _ fun a _ b _ => Iff.rfl,List.head?_map,Option.map_map]
  rfl

theorem shown_notificationRows (unreadOnly : Bool) (cursor : Option Cursor) :
    NotificationRepository.notificationRows v unreadOnly cursor (shownTo v db) =
      NotificationRepository.notificationRows v unreadOnly cursor db := by
  unfold NotificationRepository.notificationRows
  simp only [shownTo,Table.rows_restrict,List.filter_filter]
  congr 2
  funext row
  by_cases own : row.userId = v <;> simp [own]

theorem shown_rowOf (card : Postcard) : rowOf (shownTo v db) v (cover v card) =
    (rowOf db v card).map (unread v) := by
  have own : (shownTo v db).participants.get? ((cover v card).matchId,v) =
    db.participants.get? (card.matchId,v) := shown_seat v db _
  unfold rowOf
  rw [own]
  simp only [Option.bind_eq_bind,Option.map_bind,Function.comp_def,Option.pure_def,Option.map_some]
  rfl

theorem shown_mailbox (mailbox : Mailbox) (card : Postcard) (own : mailbox.owner card = v) :
    mailbox.deletedAt (cover v card) = mailbox.deletedAt card := by
  cases mailbox with
  | received => exact if_pos own
  | sent => exact if_pos own

theorem shown_mailboxRows (mailbox : Mailbox) (cursor : Option Cursor) :
    mailboxRows v mailbox cursor (shownTo v db) = (mailboxRows v mailbox cursor db).map (unread v) := by
  have through : ∀ card : Postcard, decide (mailbox.owner (cover v card) = v ∧
      mailbox.deletedAt (cover v card) = none ∧ precedes cursor (cover v card).sentAt (cover v card).id) =
      decide (mailbox.owner card = v ∧ mailbox.deletedAt card = none ∧ precedes cursor card.sentAt card.id) := by
    intro card
    have owner : mailbox.owner (cover v card) = mailbox.owner card := by cases mailbox <;> rfl
    rw [owner]
    by_cases own : mailbox.owner card = v
    · rw [shown_mailbox v mailbox card own]
      rfl
    · simp [own]
  unfold mailboxRows
  rw [shown_postcards,filter_map_through through,← List.map_insertionSort (r := sentLater) (s := sentLater)
    (cover v) _ fun a _ b _ => Iff.rfl,List.filterMap_map,List.map_filterMap]
  congr 1
  exact funext fun card => shown_rowOf v db card

theorem shown_postcard (id : UUID) :
    (((shownTo v db).postcards.get? id).filter (isVisible v)).bind (rowOf (shownTo v db) v) =
      (((db.postcards.get? id).filter (isVisible v)).bind (rowOf db v)).map (unread v) := by
  have covered : (shownTo v db).postcards.get? id = (db.postcards.get? id).map (cover v) :=
    Table.get?_modify _ _ _ _ _
  rw [covered]
  cases db.postcards.get? id with
  | none => rfl
  | some card =>
    have visible : isVisible v (cover v card) = isVisible v card := by
      unfold isVisible cover
      by_cases sender : card.senderId = v <;> by_cases receiver : card.receiverId = v <;>
        simp [sender,receiver]
    rw [Option.map_some,Option.filter_some,Option.filter_some,visible]
    split
    · exact shown_rowOf v db card
    · rfl

end reads

section writes
variable {u v : UUID} {db : Db}

theorem shown_updateParticipant (other : u ≠ v) {m : UUID} {assign : MatchParticipant → MatchParticipant}
    {keeps : ∀ row, ((assign row).matchId,(assign row).userId) = (row.matchId,row.userId)}
    (same : ∀ row, seat (assign row) = seat row) :
    shownTo v (updateParticipant m u assign keeps db) = shownTo v db := by
  have rows : ((db.participants.modify (fun key => key = (m,u)) assign keeps).modify (fun key => key.2 ≠ v)
      seat seat_key) = db.participants.modify (fun key => key.2 ≠ v) seat seat_key := by
    refine Table.ext ?_
    simp only [Table.rows_modify,List.map_map]
    refine List.map_congr_left fun row _ => ?_
    by_cases chosen : row.matchId = m ∧ row.userId = u
    · obtain ⟨rfl,rfl⟩ := chosen
      have kept : (assign row).userId = row.userId := congrArg Prod.snd (keeps row)
      simp [kept,other,same]
    · simp [chosen]
  exact congrArg (fun table => {shownTo v db with participants := table}) rows

theorem shown_updatePostcard {id : UUID} {assign : Postcard → Postcard}
    {keeps : ∀ row, (assign row).id = row.id}
    (same : ∀ card, db.postcards.get? id = some card → cover v (assign card) = cover v card) :
    shownTo v (db.updatePostcard id assign keeps) = shownTo v db := by
  have rows : ((db.postcards.modify (fun other => other = id) assign keeps).modify (fun _ => true)
      (cover v) (cover_id v)) = db.postcards.modify (fun _ => true) (cover v) (cover_id v) := by
    refine Table.ext ?_
    simp only [Table.rows_modify,List.map_map]
    refine List.map_congr_left fun card member => ?_
    by_cases chosen : card.id = id
    · have covered := same card (chosen ▸ Table.get?_of_mem member)
      simpa [chosen] using covered
    · simp [chosen]
  exact congrArg (fun table => {shownTo v db with postcards := table}) rows

theorem shown_readWrites {chosen : UUID → Bool} (now : Time)
    (others : ∀ row ∈ db.notifications.rows, chosen row.id = true → row.userId ≠ v) :
    shownTo v (NotificationRepository.readWrites chosen now db) = shownTo v db := by
  have rows : (db.notifications.modify chosen (fun row => {row with readAt := some now})
      fun _ => rfl).restrict (fun row => row.userId = v) = db.notifications.restrict fun row => row.userId = v := by
    refine Table.ext ?_
    simp only [Table.rows_restrict,Table.rows_modify]
    rw [filter_map_through fun row => by split <;> rfl]
    refine (List.map_congr_left fun row member => ?_).trans (List.map_id _)
    obtain ⟨inside,own⟩ := List.mem_filter.mp member
    refine if_neg fun picked => others row inside picked (of_decide_eq_true own)
  exact congrArg (fun table => {shownTo v db with notifications := table}) rows

theorem shown_insertReport {row : Report} {db' : Db} (other : row.reporterId ≠ v)
    (inserted : db.insertReport row = some db') : shownTo v db' = shownTo v db := by
  obtain ⟨_,fresh,rfl⟩ := Db.insertReport_eq_some.mp inserted
  have rows : (db.reports.insert row fresh).restrict (fun row => row.reporterId = v) =
      db.reports.restrict fun row => row.reporterId = v := by
    refine Table.ext ?_
    simp [other]
  exact congrArg (fun table => {shownTo v db with reports := table}) rows

end writes

section actions
variable {u v : UUID} {t n : Nat} {inputs : Nat → Input} {w : BackendWorld} {α : Type}

/-- Run alone, the program leaves a user everything he is shown. -/
def Hides (v : UUID) (t : Nat) (inputs : Nat → Input) (p : App α) (w : BackendWorld) : Prop :=
  ∀ n, shownTo v (alone t inputs p n w).world.db = shownTo v w.db

theorem hides_discarded {p : App α} (hides : Hides v t inputs p w) :
    Hides v t inputs (do let _ ← p; return ()) w := by
  intro n
  rw [alone_map p fun _ => ()]
  exact hides n

theorem hides_commitOr {failure : Exc} {writes : Input → Db → Option (Db × List Event)} {k : Input → App α}
    (written : ∀ i db events, writes i w.db = some (db,events) → shownTo v db = shownTo v w.db)
    (rest : ∀ i w', Hides v t inputs (k i) w') : Hides v t inputs (commitOr failure writes >>= k) w := by
  intro n
  rw [alone_commitOr]
  cases same : writes (inputs n) w.db with
  | none => rfl
  | some result => exact (rest _ _ _).trans (written _ _ _ same)

theorem hides_get (userId id : UUID) : Hides v t inputs (PostcardRepository.get userId id) w := by
  intro n
  rw [PostcardRepository.get,alone_query]
  split <;> rfl

theorem hides_updateMatchVisibility (other : u ≠ v) (matchId : UUID) (hidden : Bool) :
    Hides v t inputs (HomeRepository.updateMatchVisibility u matchId hidden) w := by
  intro n
  rw [HomeRepository.updateMatchVisibility,alone_query]
  split
  next => rfl
  next =>
    rw [alone_supply]
    dsimp only
    generalize (if hidden = true then some (inputs (n + 1)).now else none) = hiddenAt
    split
    next => rfl
    next =>
      rw [alone_selectForUpdate]
      refine hides_commitOr (fun i db events written => ?_) (fun i w' n => rfl) _
      cases written
      exact shown_updateParticipant other fun row => rfl

theorem hides_markMatchViewed (other : u ≠ v) (matchId : UUID) :
    Hides v t inputs (HomeRepository.markMatchViewed u matchId) w := by
  intro n
  rw [HomeRepository.markMatchViewed,alone_query]
  split
  next => rfl
  next =>
    split
    next => rfl
    next =>
      rw [alone_supply,alone_selectForUpdate]
      refine hides_commitOr (fun i db events written => ?_) (fun i w' n => rfl) _
      cases written
      exact shown_updateParticipant other fun row => rfl

theorem hides_markRead (other : u ≠ v) (postcardId : UUID) :
    Hides v t inputs (PostcardRepository.markRead u postcardId) w := by
  intro n
  rw [PostcardRepository.markRead,alone_query]
  split
  next => rfl
  next card found =>
    obtain ⟨there,own⟩ := Option.filter_eq_some_iff.mp found
    have receiver : card.receiverId ≠ v := fun same => other ((of_decide_eq_true own).1.symm.trans same)
    split
    · rw [alone_supply,alone_selectForUpdate]
      refine hides_commitOr (fun i db events written => ?_) (fun i w' => hides_get _ _) _
      cases written
      refine shown_updatePostcard fun row same => ?_
      cases Option.some.inj (there.symm.trans same)
      simp [cover,receiver]
    · exact hides_get _ _ _

theorem hides_delete (other : u ≠ v) (postcardId : UUID) :
    Hides v t inputs (PostcardRepository.delete u postcardId) w := by
  intro n
  rw [PostcardRepository.delete,alone_query]
  split
  next => rfl
  next side found =>
    obtain ⟨card,there,own⟩ := Option.bind_eq_some_iff.mp found
    rw [alone_supply,alone_selectForUpdate]
    refine hides_commitOr (fun i db events written => ?_) (fun i w' n => rfl) _
    cases written
    unfold sideOf at own
    split at own
    next sender =>
      cases own
      refine shown_updatePostcard fun row same => ?_
      cases Option.some.inj (there.symm.trans same)
      have sender : card.senderId ≠ v := sender.1 ▸ other
      simp [cover,sender]
    next =>
      split at own
      next receiver =>
        cases own
        refine shown_updatePostcard fun row same => ?_
        cases Option.some.inj (there.symm.trans same)
        have receiver : card.receiverId ≠ v := receiver.1 ▸ other
        simp [cover,receiver]
      next => cases own

theorem hides_readNotification (other : u ≠ v) (notificationId : UUID) :
    Hides v t inputs (NotificationRepository.markRead u notificationId) w := by
  intro n
  rw [NotificationRepository.markRead,alone_query]
  split
  next => rfl
  next row found =>
    obtain ⟨there,own⟩ := Option.filter_eq_some_iff.mp found
    split
    · rw [alone_supply]
      refine hides_commitOr (fun i db events written => ?_) (fun i w' n => rfl) _
      cases written
      refine shown_readWrites _ fun entry member chosen same => ?_
      have id := of_decide_eq_true chosen
      cases Option.some.inj ((Table.get?_of_mem member).symm.trans (id ▸ there))
      exact other ((of_decide_eq_true own).1.symm.trans same)
    · rfl

theorem hides_markAllRead (other : u ≠ v) : Hides v t inputs (NotificationRepository.markAllRead u) w := by
  intro n
  rw [NotificationRepository.markAllRead,alone_supply]
  refine hides_commitOr (fun i db events written => ?_) (fun i w' n => rfl) _
  cases written
  refine shown_readWrites _ fun row member chosen same => ?_
  obtain ⟨entry,listed,id⟩ := List.mem_map.mp (List.contains_iff_mem.mp chosen)
  obtain ⟨inside,own⟩ := List.mem_filter.mp listed
  have entries := (Table.get?_of_mem inside).symm.trans (id ▸ Table.get?_of_mem member)
  cases Option.some.inj entries
  exact other ((of_decide_eq_true own).1.symm.trans same)

theorem alone_flushReport (arguments : ReportRepository.Arguments) (report : Report) :
    alone t inputs (ReportRepository.flushReport arguments report) n w =
      ⟨if (w.db.insertReport report).isSome then .ok () else .error .integrityError,n + 1 + 1,w⟩ := by
  rw [ReportRepository.flushReport,alone_selectForUpdate,alone_query]
  split <;> rfl

theorem ReportRepository.ownParticipant_user {reporterId photoId : UUID} {db : Db} {row : MatchParticipant}
    (found : ReportRepository.ownParticipant reporterId photoId db = some row) : row.userId = reporterId := by
  unfold ReportRepository.ownParticipant at found
  have own := List.find?_some found
  exact (of_decide_eq_true own).1

theorem shown_reportPhotoWrites (other : u ≠ v) {arguments : ReportRepository.Arguments} {report : Report}
    {participant : Option MatchParticipant} {now : Time} {db db' : Db} {events : List Event}
    (reporter : report.reporterId = u) (own : ∀ row, participant = some row → row.userId = u)
    (written : ReportRepository.reportPhotoWrites arguments report participant now db = some (db',events)) :
    shownTo v db' = shownTo v db := by
  obtain ⟨made,inserted,rest⟩ := Option.bind_eq_some_iff.mp written
  have kept := shown_insertReport (reporter ▸ other) inserted
  cases participant with
  | none =>
    cases rest
    exact kept
  | some row =>
    cases rest
    have hidden : shownTo v (made.hideParticipant row.matchId row.userId now) = shownTo v made :=
      shown_updateParticipant (own row rfl ▸ other) fun row => rfl
    exact hidden.trans kept

theorem hides_report (other : u ≠ v) (photoId : UUID) (reasonCode : String) (detail : Option String) :
    Hides v t inputs (ReportRepository.create ⟨u,.photo,photoId,reasonCode,detail⟩) w := by
  intro n
  change shownTo v (alone t inputs (ReportRepository.createForPhoto ⟨u,.photo,photoId,reasonCode,detail⟩)
    n w).world.db = _
  rw [ReportRepository.createForPhoto,alone_supply,alone_query]
  split
  · rfl
  dsimp only
  rw [alone_bind,alone_flushReport,andThen]
  split
  next =>
    rw [alone_query]
    split
    next =>
      exact hides_commitOr (fun i db events written => shown_reportPhotoWrites other rfl
        (fun row same => by cases same) written) (fun i w' n => rfl) _
    next row found =>
      have own : row.userId = u := ReportRepository.ownParticipant_user found
      rw [alone_supply,alone_selectForUpdate]
      exact hides_commitOr (fun i db events written => shown_reportPhotoWrites other rfl
        (fun _ same => Option.some.inj same ▸ own) written) (fun i w' n => rfl) _
  next => rfl

theorem shown_act (other : u ≠ v) (act : Act) : shownTo v (act.apply u w).db = shownTo v w.db := by
  unfold Act.apply
  cases act.action with
  | updateMatchVisibility matchId hidden =>
    exact hides_discarded (hides_updateMatchVisibility other matchId hidden) 0
  | markMatchViewed matchId => exact hides_discarded (hides_markMatchViewed other matchId) 0
  | readPostcard postcardId => exact hides_discarded (hides_markRead other postcardId) 0
  | deletePostcard postcardId => exact hides_delete other postcardId 0
  | readNotification notificationId =>
    exact hides_discarded (hides_readNotification other notificationId) 0
  | readNotifications => exact hides_markAllRead other 0
  | reportPhoto photoId reasonCode detail => exact hides_report other photoId reasonCode detail 0

end actions

section answers
variable {u v : UUID} {w w' : BackendWorld} {α β : Type}

/-- Run alone, the program answers alike in both worlds. -/
def SameAnswers (w w' : BackendWorld) (p : App α) : Prop :=
  ∀ t inputs, (alone t inputs p 0 w').result = (alone t inputs p 0 w).result

/-- What a user gets of his moments, matches, postcards and notifications is the same, but for the time
another read a postcard of his. -/
structure Unaffected (v : UUID) (w w' : BackendWorld) : Prop where
  moments : ∀ chosen size cursor, chosen.userId = v → SameAnswers w w' (listMoments chosen size cursor)
  counts : ∀ today excludeToday, SameAnswers w w' (countMoments v today excludeToday)
  detail : ∀ matchId, SameAnswers w w' (getMatchDetail v matchId)
  next : ∀ today, SameAnswers w w' (getNextUnviewedMatch v today)
  postcards : ∀ mailbox size cursor, SameAnswers w w' do
    let rows ← PostcardRepository.list v mailbox size cursor
    return rows.map (unread v)
  postcard : ∀ id, SameAnswers w w' do
    let row ← PostcardRepository.get v id
    return unread v row
  notifications : ∀ unreadOnly size cursor,
    SameAnswers w w' (NotificationRepository.list v unreadOnly size cursor)

theorem agree (shown : shownTo v w'.db = shownTo v w.db) {f : Db → α} {g : α → α}
    (through : ∀ db, f (shownTo v db) = g (f db)) : g (f w'.db) = g (f w.db) := by
  rw [← through,shown,through]

theorem unaffected (shown : shownTo v w'.db = shownTo v w.db) : Unaffected v w w' := by
  have plain : ∀ {α : Type} {f : Db → α}, (∀ db, f (shownTo v db) = f db) → f w'.db = f w.db :=
    fun through => agree shown (g := id) through
  refine ⟨?_,?_,?_,?_,?_,?_,?_⟩
  · intro chosen size cursor own t inputs
    have rows := plain fun db => shown_momentRows v db own cursor
    rw [listMoments,alone_query,alone_query,rows]
    split <;> rfl
  · intro today excludeToday t inputs
    have statuses := plain fun db => shown_countedStatuses v db today excludeToday
    rw [countMoments,alone_query,alone_query,statuses]
    rfl
  · intro matchId t inputs
    have rows := plain fun db => shown_matchDetails v db matchId
    rw [getMatchDetail,alone_query,alone_query,rows]
    split <;> rfl
  · intro today t inputs
    have first := plain (f := fun db => ((((cardColumns v db).filter (isUnviewed v today db)).insertionSort
      matchedEarlier).head?).map CardColumns.row) fun db => shown_firstUnviewed v db today
    have count := plain (f := fun db => ((cardColumns v db).filter (isUnviewed v today db)).length)
      fun db => shown_unviewedCount v db today
    rw [getNextUnviewedMatch,alone_query,alone_query,alone_query,alone_query]
    exact congrArg Except.ok (congrArg₂ Prod.mk first count)
  · intro mailbox size cursor t inputs
    have rows := agree shown fun db => shown_mailboxRows v db mailbox cursor
    rw [PostcardRepository.list,alone_query,alone_query,alone_pure,alone_pure,List.map_take,List.map_take,rows]
  · intro id t inputs
    have row := agree shown (f := fun db => ((db.postcards.get? id).filter (isVisible v)).bind (rowOf db v))
      fun db => shown_postcard v db id
    rw [alone_map,alone_map,PostcardRepository.get,alone_query,alone_query]
    generalize ((w'.db.postcards.get? id).filter (isVisible v)).bind (rowOf w'.db v) = one at row
    generalize ((w.db.postcards.get? id).filter (isVisible v)).bind (rowOf w.db v) = two at row
    cases one <;> cases two
    · rfl
    · cases row
    · cases row
    · exact congrArg Except.ok (Option.some.inj row)
  · intro unreadOnly size cursor t inputs
    have rows := plain fun db => shown_notificationRows v db unreadOnly cursor
    have count := plain fun db => shown_notificationRows v db true none
    rw [NotificationRepository.list,alone_query,alone_query,alone_query,alone_query,rows,count]
    rfl

/-- Whatever a user does for himself, nobody else gets anything else. -/
theorem personalActions (other : v ≠ u) (acts : List Act) (w : BackendWorld) :
    Unaffected v w (acts.foldl (Act.apply u) w) := by
  refine unaffected ?_
  induction acts generalizing w with
  | nil => rfl
  | cons act acts ih => exact (ih (act.apply u w)).trans (shown_act other.symm act)

end answers

namespace Sample

/-- The first user hides the match, looks at it and reports the photo he was matched with. -/
def personal : List Act :=
  [⟨8,fun _ => input 8 800,.updateMatchVisibility 300 true⟩,
    ⟨9,fun _ => input 9 900,.markMatchViewed 300⟩,
    ⟨10,fun _ => input 10 1000,.reportPhoto 12 "OTHER" none⟩]

end Sample

theorem personalActions_matched : ∃ s, Reachable Sample.settings Rat.sqrt Sample.users s ∧
    (Sample.personal.foldl (Act.apply 1) s.world).db.participants.get? (300,1) =
      some ⟨300,1,11,some 9,some 10⟩ ∧
    Unaffected 2 s.world (Sample.personal.foldl (Act.apply 1) s.world) := by
  obtain ⟨s,_,reachable,hidden⟩ := Sample.reached Sample.matched (fun s =>
    decide ((Sample.personal.foldl (Act.apply 1) s.world).db.participants.get? (300,1) =
      some ⟨300,1,11,some 9,some 10⟩)) (by decide +kernel)
  exact ⟨s,reachable,of_decide_eq_true hidden,personalActions (by decide) Sample.personal s.world⟩

end Dalm
