import Dalm.Moments
import Dalm.PostcardOrder
import Dalm.Fresh
import Dalm.Relational.Alone

/-! The permission to send a postcard that is shown is the one a sending meets: the detail
of a match, the list of moments and `send` decide the first sender, the last sender and the
block each on its own. -/
namespace Dalm
open Relational PostcardRepository HomeRepository

/-- A postcard is there that was not. -/
def Created (draft : Draft) (w : BackendWorld) (e : Ended Db Event Exc PostcardRow) : Prop :=
  ∃ card row, e.result = .ok row ∧ row.id = card.id ∧ w.db.postcards.get? card.id = none ∧
    e.world.db.postcards.get? card.id = some card ∧ card.matchId = draft.matchId ∧
    card.senderId = draft.userId ∧ card.content = draft.content

/-- A sending ends as the permission says. -/
structure Enforced (permission : PostcardPermission) (draft : Draft) (w : BackendWorld)
    (e : Ended Db Event Exc PostcardRow) : Prop where
  canSend : permission = .canSend ↔ Created draft w e
  blocked : permission = .blocked ↔ e.result = .error userBlocked
  waitingForFirst : permission = .waitingForFirst ↔ e.result = .error orderNotAllowed
  waitingForReply : permission = .waitingForReply ↔ e.result = .error replyNotReceived

/-- The error a permission stands for. -/
def refusal : PostcardPermission → Option Exc
  | .canSend => none
  | .blocked => some userBlocked
  | .waitingForFirst => some orderNotAllowed
  | .waitingForReply => some replyNotReceived

/-- The two participants of a match, as one of them sees them. -/
structure Seated (db : Db) (matchId : UUID) (mine partner : MatchParticipant × Photo) : Prop where
  mineRow : db.participants.get? (matchId,mine.1.userId) = some mine.1
  partnerRow : db.participants.get? (matchId,partner.1.userId) = some partner.1
  minePhoto : db.photos.get? mine.1.photoId = some mine.2
  partnerPhoto : db.photos.get? partner.1.photoId = some partner.2
  apart : partner.1.userId ≠ mine.1.userId
  photosApart : mine.1.photoId ≠ partner.1.photoId
  only : ∀ userId row, db.participants.get? (matchId,userId) = some row →
    userId = mine.1.userId ∨ userId = partner.1.userId

section seats
variable {settings : Settings} {w : BackendWorld} {db : Db} {m userId : UUID}
  {mine partner : MatchParticipant × Photo}

theorem seated_of_participant (inv : Inv settings w)
    (participates : (w.db.participants.get? (m,userId)).isSome) :
    ∃ mine partner, mine.1.userId = userId ∧ Seated w.db m mine partner := by
  have entry : ∀ {u row}, w.db.participants.get? (m,u) = some row → row.userId = u ∧
      ∃ photo, w.db.photos.get? row.photoId = some photo := by
    intro u row found
    obtain ⟨_,photo,stored,_,_⟩ := inv.matches_.participant m u row found
    exact ⟨congrArg Prod.snd (Table.key_of_get? found),photo,stored⟩
  obtain ⟨row,found⟩ := Option.isSome_iff_exists.mp participates
  obtain ⟨a,b,first,second,apart,one,two,photos,only⟩ :=
    inv.matches_.pair m (inv.matches_.participant m userId row found).1
  obtain ⟨rfl,p,stored⟩ := entry one
  obtain ⟨rfl,q,stored'⟩ := entry two
  rcases only userId row found with rfl | rfl
  · exact ⟨(first,p),(second,q),rfl,one,two,stored,stored',apart.symm,photos,only⟩
  · exact ⟨(second,q),(first,p),rfl,two,one,stored',stored,apart,photos.symm,
      fun u other there => (only u other there).symm⟩

theorem filter_eq_singleton {α : Type} [DecidableEq α] {p : α → Bool} {l : List α} {a : α} (distinct : l.Nodup)
    (member : a ∈ l) (only : ∀ b ∈ l, p b = true ↔ b = a) : l.filter p = [a] := by
  have same : l.filter p = l.filter fun b => b = a := by
    refine List.filter_congr fun b inside => ?_
    rw [Bool.eq_iff_iff,decide_eq_true_iff]
    exact only b inside
  rw [same,List.filter_eq,List.count_eq_one_of_mem distinct member]
  rfl

theorem Seated.partners_eq (seated : Seated db m mine partner) :
    partners mine.1.userId m db = [partner.1] := by
  have key := Table.key_of_get? seated.partnerRow
  refine filter_eq_singleton (List.Nodup.of_map _ db.participants.distinct)
    (Table.mem_rows_of_get? seated.partnerRow).1 fun row inside => ?_
  rw [decide_eq_true_iff]
  constructor
  · intro chosen
    have found : db.participants.get? (m,row.userId) = some row :=
      chosen.1 ▸ Table.get?_of_mem inside
    have user := (seated.only row.userId row found).resolve_left chosen.2
    rw [user] at found
    exact Option.some.inj (found.symm.trans seated.partnerRow)
  · intro same
    rw [same]
    exact ⟨congrArg Prod.fst key,seated.apart⟩

theorem Seated.ids (seated : Seated db m mine partner) :
    mine.2.id = mine.1.photoId ∧ partner.2.id = partner.1.photoId :=
  ⟨Table.key_of_get? seated.minePhoto,Table.key_of_get? seated.partnerPhoto⟩

theorem registeredFirst_iff {mine partner : MatchParticipant × Photo} :
    registeredFirst mine.2 partner.2 = true ↔ registeredBefore mine partner := by
  unfold registeredFirst registeredBefore
  split
  next same => simp [same]
  next different => simp [different]

/-- The pair a sending locks has the one registered first in front. -/
theorem Seated.participantsOf_eq (seated : Seated db m mine partner) : participantsOf m db =
    if registeredFirst mine.2 partner.2 then [mine,partner] else [partner,mine] := by
  have different : mine ≠ partner := fun same => seated.apart (by rw [same])
  have perm : (participantsOf m db).Perm [mine,partner] := by
    refine (List.perm_ext_iff_of_nodup (nodup_participantsOf m db) (by simpa using different)).mpr ?_
    intro entry
    constructor
    · intro member
      obtain ⟨_,row,photo⟩ := mem_participantsOf member
      rcases seated.only _ _ row with same | same
      · have rows := Option.some.inj (row.symm.trans (same ▸ seated.mineRow))
        have photos := Option.some.inj (photo.symm.trans (rows ▸ seated.minePhoto))
        exact List.mem_cons.mpr (.inl (Prod.ext rows photos))
      · have rows := Option.some.inj (row.symm.trans (same ▸ seated.partnerRow))
        have photos := Option.some.inj (photo.symm.trans (rows ▸ seated.partnerPhoto))
        exact List.mem_cons_of_mem _ (List.mem_singleton.mpr (Prod.ext rows photos))
    · have inside : ∀ {entry : MatchParticipant × Photo},
          db.participants.get? (m,entry.1.userId) = some entry.1 →
          db.photos.get? entry.1.photoId = some entry.2 → entry ∈ participantsOf m db := by
        intro entry row photo
        refine (List.mem_insertionSort _).mpr (List.mem_filterMap.mpr ⟨entry.1,?_,?_⟩)
        · have key := Table.key_of_get? row
          exact List.mem_filter.mpr ⟨(Table.mem_rows_of_get? row).1,
            decide_eq_true (congrArg Prod.fst key)⟩
        · simp [photo]
      intro member
      rcases List.mem_pair.mp member with rfl | rfl
      · exact inside seated.mineRow seated.minePhoto
      · exact inside seated.partnerRow seated.partnerPhoto
  have sorted : (participantsOf m db).Pairwise registeredBefore :=
    List.pairwise_insertionSort registeredBefore _
  obtain ⟨first,second,same⟩ := List.length_eq_two.mp (perm.length_eq.trans rfl)
  rw [same] at perm sorted ⊢
  have ordered : registeredBefore first second := by simpa using sorted
  have distinct : first ≠ second := by simpa using perm.nodup_iff.mpr (by simpa using different)
  have one : first = mine ∨ first = partner := by simpa using perm.mem_iff.mp (List.mem_cons_self)
  have two : second = mine ∨ second = partner := by
    simpa using perm.mem_iff.mp (List.mem_cons_of_mem _ (List.mem_singleton.mpr rfl))
  rcases one with rfl | rfl
  · rcases two with rfl | rfl
    · exact absurd rfl distinct
    · rw [if_pos (registeredFirst_iff.mpr ordered)]
  · rcases two with rfl | rfl
    · rw [if_neg]
      intro earlier
      have same := registeredBefore_antisymm ordered (registeredFirst_iff.mp earlier)
      rw [seated.ids.1,seated.ids.2] at same
      exact seated.photosApart same.symm
    · exact absurd rfl distinct

theorem Seated.parties_eq (seated : Seated db m mine partner) :
    parties mine.1.userId (participantsOf m db) = some
      (if registeredFirst mine.2 partner.2 then mine.1.userId else partner.1.userId,
        partner.1.userId) := by
  rw [seated.participantsOf_eq]
  split
  · simp [parties]
  · simp [parties,seated.apart.symm]

end seats

section content
variable {α : Type} {p q : α → Bool}

private theorem dropWhile_id {l : List α} (head : ∀ x ∈ l.head?, p x = false) : l.dropWhile p = l := by
  cases l with
  | nil => rfl
  | cons x l => rw [List.dropWhile_cons,head x rfl,if_neg Bool.false_ne_true]

private theorem head_dropWhile {l : List α} : ∀ x ∈ (l.dropWhile p).head?, p x = false := by
  intro x first
  have fails := List.head?_dropWhile_not p l
  rw [Option.mem_def.mp first] at fails
  exact fails

private theorem getLast_dropWhile {l : List α} : ∀ x ∈ (l.dropWhile p).getLast?, x ∈ l.getLast? := by
  intro x last
  obtain ⟨dropped,same⟩ := List.dropWhile_suffix p (l := l)
  rw [← same,List.mem_getLast?_append_of_mem_getLast? last]
  rfl

/-- What is left after blanks are stripped has no blank at either end. -/
theorem contentAllowed_of_stripped {request : SendPostcardRequest} {content : List Char}
    (stripped : request.stripped = .ok content) : Db.contentAllowed content := by
  unfold SendPostcardRequest.stripped at stripped
  simp only at stripped
  split at stripped
  · cases stripped
  next nonempty =>
    cases stripped
    have blank : ∀ x, isSpace x = false → decide (x = ' ') = false := by
      intro x other
      refine decide_eq_false fun same => ?_
      rw [same] at other
      cases other
    let leading := request.content.dropWhile isSpace
    let trailing := leading.reverse.dropWhile isSpace
    have front : ∀ x ∈ (strip request.content).head?, decide (x = ' ') = false := by
      intro x first
      refine blank x (head_dropWhile (l := request.content) x ?_)
      rw [strip,List.head?_reverse] at first
      have last := getLast_dropWhile x first
      rwa [List.getLast?_reverse] at last
    have back : ∀ x ∈ trailing.head?, decide (x = ' ') = false :=
      fun x first => blank x (head_dropWhile x first)
    have trimmed : (((strip request.content).dropWhile (· = ' ')).reverse.dropWhile (· = ' ')).reverse =
        strip request.content := by
      rw [dropWhile_id front]
      change ((trailing.reverse.reverse.dropWhile _).reverse) = trailing.reverse
      rw [List.reverse_reverse,dropWhile_id back]
    have short : (strip request.content).length ≤ request.content.length := by
      rw [strip,List.length_reverse]
      have one := (List.dropWhile_suffix isSpace (l := leading.reverse)).length_le
      have two := (List.dropWhile_suffix isSpace (l := request.content)).length_le
      rw [List.length_reverse] at one
      exact one.trans two
    simp only [Db.contentAllowed,trimmed,decide_eq_true_eq]
    have some_ := List.length_pos_iff.mpr nonempty
    have bounded := request.bounded.2
    omega

end content

/-- The permission the rows of a match and the blocks give one of its participants. -/
def permissionOf (db : Db) (m : UUID) (mine partner : MatchParticipant × Photo) : PostcardPermission :=
  resolvePostcardPermission (db.blockedBetween mine.1.userId partner.1.userId)
    (registeredFirst mine.2 partner.2) (lastSender m db) mine.1.userId

section sending
open Txn
variable {t : Nat} {inputs : Nat → Input} {n : Nat} {w : BackendWorld} {draft : Draft}
  {mine partner : MatchParticipant × Photo}

theorem alone_lockParticipants {listed : List (MatchParticipant × Photo)}
    (there : ∀ entry ∈ listed,
      w.db.participants.get? (entry.1.matchId,entry.1.userId) = some entry.1 ∧
      w.db.photos.get? entry.1.photoId = some entry.2) :
    alone t inputs (lockParticipants listed) n w = ⟨.ok listed,n + 2 * listed.length,w⟩ := by
  induction listed generalizing n with
  | nil => rfl
  | cons entry listed ih =>
    obtain ⟨row,photo⟩ := there entry List.mem_cons_self
    have rest := ih (n := n + 1 + 1) fun other inside => there other (List.mem_cons_of_mem entry inside)
    have view : Lockable.view (RowKey.participant entry.1.matchId entry.1.userId) w.db = some entry.1 := row
    have view' : Lockable.view (RowKey.photo entry.1.photoId) w.db = some entry.2 := photo
    rw [lockParticipants,alone_selectForUpdate,view,alone_selectForUpdate,view',alone_bind,rest]
    simp only [andThen,alone_pure,Ended.mk.injEq,true_and,and_true,List.length_cons]
    omega

theorem alone_lockListed (m : UUID) : ∃ k, alone t inputs (lockParticipants (participantsOf m w.db)) n w =
    ⟨.ok (participantsOf m w.db),k,w⟩ := by
  refine ⟨_,alone_lockParticipants ?_⟩
  intro entry member
  obtain ⟨same,row,photo⟩ := mem_participantsOf member
  exact ⟨same ▸ row,photo⟩

/-- What a sending does when both rows are locked. -/
theorem Seated.alone_deliver (inputs : Nat → Input) (seated : Seated w.db draft.matchId mine partner)
    (own : mine.1.userId = draft.userId) (start : Time) :
    ∃ k, alone t inputs (deliver draft start) n w =
      match refusal (permissionOf w.db draft.matchId mine partner) with
      | some error => ⟨.error error,k,w⟩
      | none => alone t inputs (do
          let ids ← commitOr alreadySent (sendWrites draft partner.1.userId start)
          get draft.userId (ids.uuid 0)) k w := by
  obtain ⟨k,locked⟩ := alone_lockListed draft.matchId
  have parties := seated.parties_eq
  rw [own] at parties
  rw [deliver,alone_query,alone_bind,locked]
  simp only [andThen,parties,permissionOf,resolvePostcardPermission,own]
  rw [alone_query]
  cases blocked : w.db.blockedBetween draft.userId partner.1.userId with
  | true => exact ⟨k + 1,by simp [refusal]⟩
  | false =>
    refine ⟨k + 1 + 1,?_⟩
    rw [if_neg Bool.false_ne_true,if_neg Bool.false_ne_true,alone_query]
    cases last : lastSender draft.matchId w.db with
    | none =>
      have apart : draft.userId ≠ partner.1.userId := own ▸ seated.apart.symm
      cases registeredFirst mine.2 partner.2 <;> simp [refusal,apart]
    | some lastId =>
      by_cases same : lastId = draft.userId <;> simp [refusal,same]

theorem sendWrites_of_fresh {ids : Input} {receiverId : UUID} (start : Time)
    (matched : (w.db.matches_.get? draft.matchId).isSome)
    (sender : (w.db.users.get? draft.userId).isSome) (receiver : (w.db.users.get? receiverId).isSome)
    (apart : draft.userId ≠ receiverId) (valid : Db.contentAllowed draft.content)
    (unused : ∀ card ∈ w.db.postcards.rows, card.senderId = draft.userId →
      draft.idempotencyKey = none ∨ card.idempotencyKey ≠ draft.idempotencyKey)
    (fresh : ids.Fresh w.db) : ∃ db events, sendWrites draft receiverId start ids w.db = some (db,events) := by
  let db : Db := {w.db with
    postcards := w.db.postcards.insert (newPostcard draft receiverId start ids)
      (fresh.postcards 0 (by decide))}
  have inserted : w.db.insertPostcard (newPostcard draft receiverId start ids) = some db := by
    refine Db.insertPostcard_eq_some.mpr ⟨⟨matched,sender,receiver,apart,valid,?_⟩,_,rfl⟩
    refine List.all_eq_true.mpr fun card member => decide_eq_true ?_
    refine or_iff_not_imp_left.mpr fun keyed same => ?_
    obtain ⟨one,two⟩ := Prod.mk.inj same
    exact (unused card member one.symm).elim keyed fun other => other two.symm
  have notified : db.insertNotification (notification (ids.uuid 1) receiverId .postcardReceived
      (ids.uuid 0) start) = some _ :=
    Db.insertNotification_eq_some.mpr ⟨receiver,fresh.notifications 1 (by decide),rfl⟩
  exact ⟨_,_,Option.bind_eq_some_iff.mpr ⟨db,inserted,Option.bind_eq_some_iff.mpr ⟨_,notified,rfl⟩⟩⟩

theorem alone_get (inputs : Nat → Input) {card : Postcard} {sender receiver : User} {participant : MatchParticipant}
    {photo : Photo} (there : w.db.postcards.get? card.id = some card)
    (kept : card.senderDeletedAt = none) (one : w.db.users.get? card.senderId = some sender)
    (two : w.db.users.get? card.receiverId = some receiver)
    (row : w.db.participants.get? (card.matchId,card.senderId) = some participant)
    (image : w.db.photos.get? participant.photoId = some photo) :
    ∃ row k, alone t inputs (get card.senderId card.id) n w = ⟨.ok row,k,w⟩ ∧ row.id = card.id := by
  have visible : isVisible card.senderId card = true := by simp [isVisible,kept]
  let shown : PostcardRow := ⟨card.id,card.matchId,card.senderId,sender.nickname,card.receiverId,
    receiver.nickname,card.content,card.readAt,card.sentAt,photo.imageUrl⟩
  have selected : ((w.db.postcards.get? card.id).filter (isVisible card.senderId)).bind
      (rowOf w.db card.senderId) = some shown := by
    rw [there,Option.filter_some,if_pos visible]
    exact rowOf_eq_some.mpr ⟨sender,receiver,participant,photo,one,two,row,image,rfl⟩
  refine ⟨shown,n + 1,?_,rfl⟩
  rw [PostcardRepository.get,alone_query,selected]
  rfl

theorem Seated.alone_commit (seated : Seated w.db draft.matchId mine partner)
    (own : mine.1.userId = draft.userId) {start : Time}
    (matched : (w.db.matches_.get? draft.matchId).isSome)
    (sender : (w.db.users.get? draft.userId).isSome)
    (receiver : (w.db.users.get? partner.1.userId).isSome) (valid : Db.contentAllowed draft.content)
    (unused : ∀ card ∈ w.db.postcards.rows, card.senderId = draft.userId →
      draft.idempotencyKey = none ∨ card.idempotencyKey ≠ draft.idempotencyKey)
    (fresh : (inputs n).Fresh w.db) : Created draft w (alone t inputs (do
      let ids ← commitOr alreadySent (sendWrites draft partner.1.userId start)
      get draft.userId (ids.uuid 0)) n w) := by
  obtain ⟨db,events,written⟩ := sendWrites_of_fresh start matched sender receiver
    (own ▸ seated.apart.symm) valid unused fresh
  obtain ⟨_,absent,notifications,rfl⟩ := sendWrites_eq written
  obtain ⟨one,found⟩ := Option.isSome_iff_exists.mp sender
  obtain ⟨two,found'⟩ := Option.isSome_iff_exists.mp receiver
  have row := seated.mineRow
  rw [own] at row
  let card := newPostcard draft partner.1.userId start (inputs n)
  let db : Db := {w.db with
    postcards := w.db.postcards.insert card absent
    notifications := w.db.notifications.insert _ notifications}
  have there : db.postcards.get? card.id = some card := Table.get?_insert_self absent
  obtain ⟨shown,k,answered,same⟩ := alone_get inputs (t := t) (n := n + 1)
    (w := (World.mk db w.log).record t events) there rfl found found' row seated.minePhoto
  rw [alone_commitOr,written]
  refine ⟨card,shown,?_,same,absent,?_,rfl,rfl,rfl⟩
  · exact congrArg Ended.result answered
  · exact (congrArg (fun e => e.world.db.postcards.get? card.id) answered).trans there

theorem alone_send (inputs : Nat → Input) (unused : ∀ card ∈ w.db.postcards.rows, card.senderId = draft.userId →
      draft.idempotencyKey = none ∨ card.idempotencyKey ≠ draft.idempotencyKey) :
    ∃ start k, alone t inputs (send draft) n w = alone t inputs (deliver draft start) k w := by
  rw [send,alone_supply]
  cases keyed : draft.idempotencyKey with
  | none => exact ⟨_,_,rfl⟩
  | some key =>
    have nothing : w.db.postcards.rows.find? (fun row =>
        row.senderId = draft.userId ∧ row.idempotencyKey = some key) = none := by
      refine List.find?_eq_none.mpr fun card member chosen => ?_
      obtain ⟨own,same⟩ := of_decide_eq_true chosen
      rcases unused card member own with none_ | other
      · rw [keyed] at none_
        cases none_
      · exact other (same.trans keyed.symm)
    refine ⟨(inputs n).now,n + 1 + 1,?_⟩
    dsimp only
    rw [alone_query,nothing]
    rfl

/-- Outcomes exclude each other, so the one that comes settles all four. -/
theorem enforced_of {permission : PostcardPermission} {e : Ended Db Event Exc PostcardRow}
    (refused : ∀ error, refusal permission = some error → e.result = .error error)
    (created : refusal permission = none → Created draft w e) : Enforced permission draft w e := by
  have apart : userBlocked ≠ orderNotAllowed ∧ userBlocked ≠ replyNotReceived ∧
      orderNotAllowed ≠ replyNotReceived := by decide
  cases permission with
  | canSend =>
    have done := created rfl
    obtain ⟨card,row,result,_⟩ := done
    exact ⟨iff_of_true rfl (created rfl),by simp [result],by simp [result],by simp [result]⟩
  | blocked =>
    have result := refused _ rfl
    exact ⟨by simp [Created,result],by simp [result],by simp [result,apart],by simp [result,apart]⟩
  | waitingForFirst =>
    have result := refused _ rfl
    exact ⟨by simp [Created,result],by simp [result,apart.1.symm],by simp [result],
      by simp [result,apart]⟩
  | waitingForReply =>
    have result := refused _ rfl
    exact ⟨by simp [Created,result],by simp [result,apart.2.1.symm],by simp [result,apart.2.2.symm],
      by simp [result]⟩

theorem Seated.enforced (seated : Seated w.db draft.matchId mine partner)
    (own : mine.1.userId = draft.userId) (matched : (w.db.matches_.get? draft.matchId).isSome)
    (sender : (w.db.users.get? draft.userId).isSome)
    (receiver : (w.db.users.get? partner.1.userId).isSome) (valid : Db.contentAllowed draft.content)
    (unused : ∀ card ∈ w.db.postcards.rows, card.senderId = draft.userId →
      draft.idempotencyKey = none ∨ card.idempotencyKey ≠ draft.idempotencyKey)
    (fresh : ∀ n, (inputs n).Fresh w.db) : Enforced (permissionOf w.db draft.matchId mine partner)
      draft w (alone t inputs (send draft) n w) := by
  obtain ⟨start,k,sent⟩ := alone_send inputs (t := t) (n := n) unused
  obtain ⟨l,delivered⟩ := seated.alone_deliver inputs (t := t) (n := k) own start
  rw [sent,delivered]
  refine enforced_of ?_ ?_
  · intro error same
    rw [same]
  · intro same
    rw [same]
    exact seated.alone_commit own matched sender receiver valid unused (fresh l)

end sending

section reading
open Txn
variable {t : Nat} {inputs : Nat → Input} {n : Nat} {settings : Settings} {w : BackendWorld} {m : UUID}
  {mine partner : MatchParticipant × Photo}

theorem Seated.detail (seated : Seated w.db m mine partner)
    (matched : (w.db.matches_.get? m).isSome) (known : (w.db.users.get? partner.1.userId).isSome) :
    ∃ row, (alone t inputs (getMatchDetail mine.1.userId m) n w).result = .ok (some row) ∧
      row.postcardPermission = permissionOf w.db m mine partner := by
  obtain ⟨match_,found⟩ := Option.isSome_iff_exists.mp matched
  obtain ⟨user,there⟩ := Option.isSome_iff_exists.mp known
  have key : match_.id = m := Table.key_of_get? found
  have rows : ∃ row, matchDetails mine.1.userId m w.db = [row] ∧
      row.postcardPermission = permissionOf w.db m mine partner := by
    simp only [matchDetails,found,Option.toList_some,List.bind_eq_flatMap,key,seated.mineRow,
      seated.partners_eq,seated.minePhoto,seated.partnerPhoto,there,List.flatMap_singleton,List.pure_def]
    exact ⟨_,rfl,rfl⟩
  obtain ⟨row,rows,permission⟩ := rows
  refine ⟨row,?_,permission⟩
  rw [getMatchDetail,alone_query,rows]
  rfl

theorem Seated.unique {db : Db} {mine' partner' : MatchParticipant × Photo}
    (seated : Seated db m mine partner) (other : Seated db m mine' partner')
    (same : mine'.1.userId = mine.1.userId) : mine' = mine ∧ partner' = partner := by
  have rows := Option.some.inj (other.mineRow.symm.trans (same ▸ seated.mineRow))
  have photos := Option.some.inj (other.minePhoto.symm.trans (rows ▸ seated.minePhoto))
  have user : partner'.1.userId = partner.1.userId :=
    (seated.only _ _ other.partnerRow).resolve_left fun equal => other.apart (equal.trans same.symm)
  have rows' := Option.some.inj (other.partnerRow.symm.trans (user ▸ seated.partnerRow))
  have photos' := Option.some.inj (other.partnerPhoto.symm.trans (rows' ▸ seated.partnerPhoto))
  exact ⟨Prod.ext rows photos,Prod.ext rows' photos'⟩

theorem some_mem_outer {β : Type} {rows : List β} {row : β} : some row ∈ outer rows ↔ row ∈ rows := by
  unfold outer
  cases rows <;> simp

/-- The columns of a moment that found its match. -/
def matchedColumns (db : Db) (m : UUID) (mine partner : MatchParticipant × Photo) : MomentColumns where
  photo := mine.2
  participant := some mine.1
  partnerPhoto := some partner.2
  match_ := db.matches_.get? m
  blocked := db.blockedBetween mine.1.userId partner.1.userId
  lastSenderId := lastSender m db

/-- The seat of a photo and its user is the only one. -/
theorem Seated.own_eq (seated : Seated w.db m mine partner) (inv : Inv settings w) :
    (w.db.participants.rows.filter fun row =>
      row.photoId = mine.2.id ∧ row.userId = mine.1.userId) = [mine.1] := by
  refine filter_eq_singleton (List.Nodup.of_map _ w.db.participants.distinct)
    (Table.mem_rows_of_get? seated.mineRow).1 fun row inside => ?_
  rw [decide_eq_true_iff,seated.ids.1]
  constructor
  · intro chosen
    have found := Table.get?_of_mem inside
    have keys := inv.matches_.once _ _ _ _ found seated.mineRow chosen.1
    rw [keys] at found
    exact Option.some.inj (found.symm.trans seated.mineRow)
  · intro same
    rw [same]
    exact ⟨rfl,rfl⟩

theorem Seated.momentColumns_eq (seated : Seated w.db m mine partner) (inv : Inv settings w) :
    momentColumns mine.1.userId w.db mine.2 = [matchedColumns w.db m mine partner] := by
  have here : mine.1.matchId = m := congrArg Prod.fst (Table.key_of_get? seated.mineRow)
  have own := seated.own_eq inv
  simp only [momentColumns,own,outer,List.isEmpty_cons,Bool.false_eq_true,if_false,List.map_cons,
    List.map_nil,List.bind_eq_flatMap,List.flatMap_singleton,here,seated.partners_eq,List.pure_def,
    Option.bind_some,seated.partnerPhoto,Option.any_some,matchedColumns]

/-- A moment has no match, or it is one of the two of its match. -/
theorem momentColumns_cases {userId : UUID} {photo : Photo} {row : MomentColumns} (inv : Inv settings w)
    (stored : w.db.photos.get? photo.id = some photo) (member : row ∈ momentColumns userId w.db photo) :
    row.participant = none ∨ ∃ m mine partner, mine.1.userId = userId ∧ Seated w.db m mine partner ∧
      mine.2 = photo ∧ row = matchedColumns w.db m mine partner := by
  have joined := member
  simp only [momentColumns,List.bind_eq_flatMap,List.mem_flatMap,List.pure_def,List.mem_singleton] at joined
  obtain ⟨participant,inside,partner,_,rfl⟩ := joined
  cases participant with
  | none => exact .inl rfl
  | some participant =>
    obtain ⟨there,chosen⟩ := List.mem_filter.mp (some_mem_outer.mp inside)
    obtain ⟨photoId,user⟩ := of_decide_eq_true chosen
    have found : w.db.participants.get? (participant.matchId,userId) = some participant :=
      user ▸ Table.get?_of_mem there
    obtain ⟨mine,partner',own,seated⟩ :=
      seated_of_participant inv (by rw [found]; rfl : (w.db.participants.get? (participant.matchId,userId)).isSome)
    have rows := Option.some.inj (found.symm.trans (own ▸ seated.mineRow))
    have photos : mine.2 = photo := by
      have image := seated.minePhoto
      rw [← rows,photoId,stored] at image
      exact (Option.some.inj image).symm
    refine .inr ⟨_,mine,partner',own,seated,photos,?_⟩
    have only := seated.momentColumns_eq inv
    rw [own,photos] at only
    rw [only] at member
    exact List.mem_singleton.mp member

theorem mapM_ok {α β ε : Type} {f : α → Except ε β} {rows : List α}
    (each : ∀ a ∈ rows, ∃ b, f a = .ok b) : ∃ made, rows.mapM f = .ok made ∧
      (∀ b ∈ made, ∃ a ∈ rows, f a = .ok b) ∧ ∀ a ∈ rows, ∃ b ∈ made, f a = .ok b := by
  induction rows with
  | nil => exact ⟨[],rfl,by simp,by simp⟩
  | cons a rows ih =>
    obtain ⟨b,first⟩ := each a List.mem_cons_self
    obtain ⟨made,rest,from_,onto⟩ := ih fun a inside => each a (List.mem_cons_of_mem _ inside)
    refine ⟨b :: made,?_,?_,?_⟩
    · rw [List.mapM_cons,first,rest]
      rfl
    · intro c member
      rcases List.mem_cons.mp member with rfl | member
      · exact ⟨a,List.mem_cons_self,first⟩
      · obtain ⟨a,inside,same⟩ := from_ c member
        exact ⟨a,List.mem_cons_of_mem _ inside,same⟩
    · intro c member
      rcases List.mem_cons.mp member with rfl | member
      · exact ⟨b,List.mem_cons_self,first⟩
      · obtain ⟨d,inside,same⟩ := onto c member
        exact ⟨d,List.mem_cons_of_mem _ inside,same⟩

theorem mem_momentRows {chosen : MomentQuery} {cursor : Option Cursor} {db : Db} {row : MomentColumns} :
    row ∈ momentRows chosen cursor db ↔ ∃ photo ∈ db.photos.rows, (photo.userId = chosen.userId ∧
      photo.deletedAt = none ∧ (chosen.excludeToday → photo.registeredDate ≠ chosen.today) ∧
      precedes cursor photo.registeredAt photo.id) ∧
      row ∈ momentColumns chosen.userId db photo ∧ chosen.filter.accepts row = true := by
  simp only [momentRows,List.mem_flatMap,List.mem_insertionSort,List.mem_filter,decide_eq_true_eq,
    and_assoc]

/-- Every moment has a row, with the permission of its match if it has one. -/
theorem momentRow_ok {chosen : MomentQuery} {cursor : Option Cursor} {row : MomentColumns}
    (inv : Inv settings w) (member : row ∈ momentRows chosen cursor w.db) :
    ∃ made, momentRow chosen.userId row = .ok made ∧
      made.matchId = row.participant.map MatchParticipant.matchId ∧
      ∀ mine partner, mine.1.userId = chosen.userId → Seated w.db m mine partner →
        made.matchId = some m → made.postcardPermission = some (permissionOf w.db m mine partner) := by
  obtain ⟨photo,there,_,joined,_⟩ := mem_momentRows.mp member
  rcases momentColumns_cases inv (Table.get?_of_mem there) joined with none_ | found
  · have permission : momentPermission chosen.userId row = .ok none := by
      simp [momentPermission,none_]
    refine ⟨_,by rw [momentRow,permission]; rfl,rfl,?_⟩
    intro mine partner _ _ same
    rw [none_] at same
    cases same
  · obtain ⟨m',mine,partner,own,seated,_,rfl⟩ := found
    obtain ⟨_,photo',stored,_,matched⟩ := inv.matches_.participant _ _ _ seated.mineRow
    cases seated.minePhoto.symm.trans stored
    have permission : momentPermission chosen.userId (matchedColumns w.db m' mine partner) =
        .ok (some (permissionOf w.db m' mine partner)) := by
      simp [momentPermission,matchedColumns,matched,permissionOf,own]
    refine ⟨_,by rw [momentRow,permission]; rfl,rfl,?_⟩
    intro mine' partner' own' seated' same
    have key : mine.1.matchId = m' := congrArg Prod.fst (Table.key_of_get? seated.mineRow)
    have here : mine.1.matchId = m := Option.some.inj same
    cases key.symm.trans here
    obtain ⟨rfl,rfl⟩ := seated'.unique seated (own.trans own'.symm)
    rfl

theorem alone_listMoments {chosen : MomentQuery} {size : Nat} {cursor : Option Cursor} :
    (alone t inputs (listMoments chosen size cursor) n w).result =
      ((momentRows chosen cursor w.db).take (size + 1)).mapM (momentRow chosen.userId) := by
  rw [listMoments,alone_query]
  split
  next made => exact made.symm
  next failed => exact failed.symm

theorem Seated.listed (seated : Seated w.db m mine partner) (inv : Inv settings w)
    (chosen : MomentQuery) (size : Nat) (cursor : Option Cursor) (own : mine.1.userId = chosen.userId) :
    ∃ rows, (alone t inputs (listMoments chosen size cursor) n w).result = .ok rows ∧
      ∀ row ∈ rows, row.matchId = some m →
        row.postcardPermission = some (permissionOf w.db m mine partner) := by
  have each := fun row (inside : row ∈ (momentRows chosen cursor w.db).take (size + 1)) =>
    momentRow_ok (m := m) inv (List.mem_of_mem_take inside)
  obtain ⟨made,done,from_,_⟩ := mapM_ok fun row inside => (each row inside).imp fun _ => And.left
  refine ⟨made,alone_listMoments.trans done,?_⟩
  intro row member
  obtain ⟨columns,inside,same⟩ := from_ row member
  obtain ⟨other,same',_,permission⟩ := each columns inside
  cases same.symm.trans same'
  exact permission mine partner own seated

/-- The photo of a match is among the moments of its user, hidden or not. -/
theorem Seated.shown (seated : Seated w.db m mine partner) (inv : Inv settings w) :
    ∃ chosen size rows, chosen.userId = mine.1.userId ∧
      (alone t inputs (listMoments chosen size none) n w).result = .ok rows ∧
      ∃ row ∈ rows, row.matchId = some m := by
  obtain ⟨_,photo,stored,owner,matched⟩ := inv.matches_.participant _ _ _ seated.mineRow
  cases seated.minePhoto.symm.trans stored
  let filter : MomentFilter := if mine.1.hiddenAt = none then .all else .hidden
  let chosen : MomentQuery := ⟨mine.1.userId,filter,0,false⟩
  have ok := inv.photos _ _ stored
  have member : matchedColumns w.db m mine partner ∈ momentRows chosen none w.db := by
    refine mem_momentRows.mpr ⟨mine.2,(Table.mem_rows_of_get? stored).1,⟨owner,?_,?_,rfl⟩,?_,?_⟩
    · exact ok.deleted.mpr (by rw [matched]; decide)
    · intro excluded
      cases excluded
    · rw [seated.momentColumns_eq inv]
      exact List.mem_singleton_self _
    · by_cases hidden : mine.1.hiddenAt = none
      · simp [chosen,filter,hidden,MomentFilter.accepts,matchedColumns]
      · simp [chosen,filter,hidden,MomentFilter.accepts,matchedColumns,Option.isSome_iff_ne_none]
  have inside : matchedColumns w.db m mine partner ∈
      (momentRows chosen none w.db).take ((momentRows chosen none w.db).length + 1) := by
    rw [List.take_of_length_le (Nat.le_succ _)]
    exact member
  obtain ⟨made,done,_,onto⟩ := mapM_ok fun row inside =>
    (momentRow_ok (m := m) inv (List.mem_of_mem_take inside)).imp fun _ => And.left
  obtain ⟨row,there,same⟩ := onto _ inside
  obtain ⟨other,same',matchId,_⟩ := momentRow_ok (m := m) inv member
  cases same.symm.trans same'
  refine ⟨chosen,_,made,rfl,alone_listMoments.trans done,row,there,?_⟩
  rw [matchId]
  exact congrArg some (congrArg Prod.fst (Table.key_of_get? seated.mineRow))

end reading

/-- A permission is what the detail and the list of moments show, and what a sending meets. -/
structure ShownAndEnforced (w : BackendWorld) (m userId : UUID) (permission : PostcardPermission) :
    Prop where
  detail : ∀ t inputs n, ∃ row,
    (Txn.alone t inputs (getMatchDetail userId m) n w).result = .ok (some row) ∧
      row.postcardPermission = permission
  listed : ∀ (chosen : MomentQuery) size cursor t inputs n, chosen.userId = userId → ∃ rows,
    (Txn.alone t inputs (listMoments chosen size cursor) n w).result = .ok rows ∧
      ∀ row ∈ rows, row.matchId = some m → row.postcardPermission = some permission
  shown : ∀ t inputs n, ∃ (chosen : MomentQuery) (size : Nat) (rows : List MomentRow),
    chosen.userId = userId ∧
      (Txn.alone t inputs (listMoments chosen size none) n w).result = .ok rows ∧
      ∃ row ∈ rows, row.matchId = some m
  sending : ∀ (draft : Draft) (request : SendPostcardRequest) t inputs n, draft.userId = userId →
    draft.matchId = m → request.stripped = .ok draft.content →
    (∀ card ∈ w.db.postcards.rows, card.senderId = userId →
      draft.idempotencyKey = none ∨ card.idempotencyKey ≠ draft.idempotencyKey) →
    (∀ k, (inputs k).Fresh w.db) →
      Enforced permission draft w (Txn.alone t inputs (send draft) n w)

/-- In every state the participants of a match are shown one permission, the enforced one. -/
theorem permissionShown {K : Type} [Field K] [LinearOrder K] [IsStrictOrderedRing K] [FloorRing K]
    {settings : Settings} {sqrt : ℚ → K} {users : Table User.id} {s : Backend} {m userId : UUID}
    (reachable : Reachable settings sqrt users s)
    (participates : (s.db.participants.get? (m,userId)).isSome) :
    ∃ permission, ShownAndEnforced s.world m userId permission := by
  have inv := reachable.inv
  obtain ⟨mine,partner,rfl,seated⟩ := seated_of_participant inv participates
  obtain ⟨row,found⟩ := Option.isSome_iff_exists.mp participates
  have matched := (inv.matches_.participant m _ row found).1
  have sender := (inv.onboarded participates).known
  have receiver := (inv.onboarded (Option.isSome_iff_exists.mpr ⟨_,seated.partnerRow⟩)).known
  refine ⟨permissionOf s.world.db m mine partner,?_,?_,?_,?_⟩
  · intro t inputs n
    exact seated.detail matched receiver
  · intro chosen size cursor t inputs n own
    exact seated.listed inv chosen size cursor own.symm
  · intro t inputs n
    exact seated.shown inv
  · intro draft request t inputs n own same stripped unused fresh
    subst same
    rw [← own] at sender unused
    exact seated.enforced own.symm matched sender receiver (contentAllowed_of_stripped stripped) unused
      fresh

theorem permissionShown_matched : ∃ s : Backend, (s.db.participants.get? (300,2)).isSome ∧
    ∃ permission, ShownAndEnforced s.world 300 2 permission := by
  obtain ⟨s,_,reachable,passed⟩ := Sample.reached Sample.matched
    (fun s => (s.db.participants.get? (300,2)).isSome) (by decide +kernel)
  exact ⟨s,passed,permissionShown reachable passed⟩

end Dalm
