import Dalm.Relational.Answers
import Dalm.PostcardOrder
import Dalm.WithdrawnMatching

/-! A user is shown his postcards, but for those whose other user has withdrawn and left no
nickname: these rows the response model does not take. -/
namespace Dalm
open Relational PostcardRepository

/-- Who asks for postcards, or sends one. -/
def Request.viewer : Request → Option UUID
  | .send draft => some draft.userId
  | .postcard userId _ => some userId
  | .postcards userId _ _ _ => some userId
  | .readPostcard userId _ => some userId
  | _ => none

def Response.postcardRows : Response → List PostcardRow
  | .postcard row => [row]
  | .postcards rows => rows
  | _ => []

/-- The user of a postcard who is not the viewer. -/
def PostcardRepository.PostcardRow.other (row : PostcardRow) (viewer : UUID) : UUID :=
  if row.senderId = viewer then row.receiverId else row.senderId

/-- The user has withdrawn, and his nickname is cleared. -/
def Db.anonymous (db : Db) (userId : UUID) : Prop :=
  ∃ row, db.users.get? userId = some row ∧ row.status = .withdrawn ∧ row.nickname = none

/-- A row of a postcard the viewer sent or received. -/
def Selected (viewer : UUID) (db : Db) (row : PostcardRow) : Prop :=
  ∃ card ∈ db.postcards.rows, (card.senderId = viewer ∨ card.receiverId = viewer) ∧
    rowOf db viewer card = some row

section rows
variable {viewer : UUID} {db : Db} {row : PostcardRow} {card : Postcard}

theorem rowOf_nicknames (joined : rowOf db viewer card = some row) :
    row.senderId = card.senderId ∧ row.receiverId = card.receiverId ∧ ∃ sender receiver,
      db.users.get? card.senderId = some sender ∧ db.users.get? card.receiverId = some receiver ∧
      row.senderNickname = sender.nickname ∧ row.receiverNickname = receiver.nickname := by
  obtain ⟨sender,receiver,_,_,one,two,_,_,rfl⟩ := rowOf_eq_some.mp joined
  exact ⟨rfl,rfl,sender,receiver,one,two,rfl,rfl⟩

theorem postcardData_isSome :
    (postcardData row).isSome ↔ row.senderNickname ≠ none ∧ row.receiverNickname ≠ none := by
  unfold postcardData
  cases row.senderNickname <;> cases row.receiverNickname <;> simp

/-- Who has been onboarded and has no nickname has withdrawn. -/
theorem nickname_none {userId : UUID} {user : User} (onboarded : Onboarded db.users userId)
    (found : db.users.get? userId = some user) : user.nickname = none ↔ db.anonymous userId := by
  obtain ⟨other,there,named⟩ := onboarded
  cases found.symm.trans there
  constructor
  · intro nameless
    exact ⟨user,found,named nameless,nameless⟩
  · intro anonymous
    obtain ⟨again,same,_,nameless⟩ := anonymous
    cases found.symm.trans same
    exact nameless

theorem Db.anonymous.gone {userId : UUID} (anonymous : db.anonymous userId) : db.gone userId := by
  obtain ⟨user,found,withdrawn,_⟩ := anonymous
  exact ⟨user,found,withdrawn⟩

theorem Selected.shown {settings : Settings} {w : BackendWorld} (selected : Selected viewer w.db row)
    (inv : Inv settings w) (staying : ¬ w.db.gone viewer) :
    (postcardData row).isSome ↔ ¬ w.db.anonymous (row.other viewer) := by
  obtain ⟨card,member,own,joined⟩ := selected
  obtain ⟨sent,received,sender,receiver,one,two,first,second⟩ := rowOf_nicknames joined
  -- Both users of a postcard took part in its match, so both have had a nickname.
  have sends := inv.onboarded (inv.postcards.sender card member)
  have receives := inv.onboarded (inv.postcards.receiver card member)
  have apart := inv.postcards.apart card member
  have stays : ¬ w.db.anonymous viewer := fun anonymous => staying anonymous.gone
  rw [postcardData_isSome,first,second,ne_eq,ne_eq,nickname_none sends one,nickname_none receives two,
    PostcardRow.other,sent,received]
  rcases own with same | same
  · rw [if_pos same,same]
    exact ⟨fun both => both.2,fun there => ⟨stays,there⟩⟩
  · rw [if_neg (fun equal => apart (equal.trans same.symm)),same]
    exact ⟨fun both => both.1,fun there => ⟨there,stays⟩⟩

end rows

section programs
variable {viewer : UUID}

theorem isVisible_own {card : Postcard} (visible : isVisible viewer card = true) :
    card.senderId = viewer ∨ card.receiverId = viewer := by
  have either := of_decide_eq_true visible
  exact either.imp And.left And.left

theorem get_answers (postcardId : UUID) :
    (PostcardRepository.get viewer postcardId).Answers (Selected viewer) := by
  apply Txn.answers_query
  intro db
  split
  · exact .inr trivial
  next row found =>
    obtain ⟨card,kept,joined⟩ := Option.bind_eq_some_iff.mp found
    obtain ⟨there,visible⟩ := Option.filter_eq_some_iff.mp kept
    exact .inl ⟨row,rfl,card,(Table.mem_rows_of_get? there).1,isVisible_own visible,joined⟩

theorem list_answers (mailbox : Mailbox) (size : Nat) (cursor : Option Cursor) :
    (PostcardRepository.list viewer mailbox size cursor).Answers
      fun db rows => ∀ row ∈ rows, Selected viewer db row := by
  intro db
  refine .inl ⟨_,rfl,?_⟩
  intro row member
  obtain ⟨card,listed,joined⟩ := List.mem_filterMap.mp (List.mem_of_mem_take member)
  obtain ⟨there,chosen⟩ := List.mem_filter.mp ((List.mem_insertionSort _).mp listed)
  obtain ⟨own,_⟩ := of_decide_eq_true chosen
  refine ⟨card,there,?_,joined⟩
  cases mailbox with
  | received => exact .inr own
  | sent => exact .inl own

theorem deliver_answers (draft : Draft) (start : Time) :
    (deliver draft start).Answers (Selected draft.userId) := by
  apply Txn.answers_bind
  intro listed
  apply Txn.answers_bind
  intro rows
  split
  · exact Txn.answers_throw _
  · apply Txn.answers_bind
    intro blocked
    split
    · exact Txn.answers_throw _
    · apply Txn.answers_bind
      intro last
      split
      · exact Txn.answers_throw _
      · split
        · exact Txn.answers_throw _
        · exact Txn.answers_bind fun ids => get_answers _

theorem send_answers (draft : Draft) : (send draft).Answers (Selected draft.userId) := by
  apply Txn.answers_bind
  intro start
  split
  · exact deliver_answers draft _
  · apply Txn.answers_bind
    intro existing
    split
    · exact get_answers _
    · exact deliver_answers draft _

theorem markRead_answers (postcardId : UUID) :
    (markRead viewer postcardId).Answers (Selected viewer) := by
  apply Txn.answers_bind
  intro found
  split
  · exact Txn.answers_throw _
  · split
    · apply Txn.answers_bind
      intro clock
      apply Txn.answers_bind
      intro locked
      exact Txn.answers_bind fun ids => get_answers _
    · exact get_answers _

end programs

section runs
variable {K : Type} [Field K] [LinearOrder K] [IsStrictOrderedRing K] [FloorRing K]
  {settings : Settings} {sqrt : ℚ → K} {users : Table User.id} {s : Backend}

theorem program_answers {r : Request} {viewer : UUID} (asks : r.viewer = some viewer) :
    (program settings sqrt r).Answers
      fun db response => ∀ row ∈ response.postcardRows, Selected viewer db row := by
  have one : ∀ {p : App PostcardRow}, p.Answers (Selected viewer) →
      (do return Response.postcard (← p) : App Response).Answers
        fun db response => ∀ row ∈ response.postcardRows, Selected viewer db row := by
    intro p answers
    refine (Txn.answers_return answers).mono ?_
    intro db response shown row member
    obtain ⟨found,rfl,selected⟩ := shown
    rw [List.mem_singleton.mp member]
    exact selected
  cases r with
  | send draft =>
    cases asks
    exact one (send_answers draft)
  | postcard userId postcardId =>
    cases asks
    exact one (get_answers postcardId)
  | readPostcard userId postcardId =>
    cases asks
    exact one (markRead_answers postcardId)
  | postcards userId mailbox size cursor =>
    cases asks
    refine (Txn.answers_return (list_answers mailbox size cursor)).mono ?_
    intro db response shown row member
    obtain ⟨rows,rfl,selected⟩ := shown
    exact selected row member
  | _ => cases asks

/-- What a request for postcards answers was selected in a state of the run; a user who had
not withdrawn there is shown a row exactly where its other user is not anonymous. -/
theorem postcardsShown (reachable : Reachable settings sqrt users s) {t : Nat} {r : Request}
    {viewer : UUID} {response : Response} (asks : r.viewer = some viewer)
    (ended : s.session t = some ⟨r,.inr (.ok response)⟩) :
    ∃ here, Reachable settings sqrt users here ∧
      Reach (program settings sqrt) Discipline.none here s ∧
      ∀ row ∈ response.postcardRows, Selected viewer here.db row ∧ (¬ here.db.gone viewer →
        ((postcardData row).isSome ↔ ¬ here.db.anonymous (row.other viewer))) := by
  obtain ⟨here,before,after,selected⟩ :=
    Reach.answered reachable (fun _ => rfl) (program_answers asks) ended
  have reached : Reachable settings sqrt users here := before
  refine ⟨here,reached,after,?_⟩
  intro row member
  exact ⟨selected row member,(selected row member).shown reached.inv⟩

end runs

namespace Sample

/-- A postcard is sent, its sender withdraws, and the receiver opens his mailbox. -/
def opened : List (Action Input Exc Request) :=
  matched ++ session 5 (letter 1 91) 12 (input 7 500) ++
    session 6 (.account (.withdraw 1)) 4 (input 8 600) ++
    session 7 (.postcards 2 .received 20 none) 2 (input 9 700)

/-- What user 2 was answered for his mailbox. -/
def mailboxOf (s : Backend) (t : Nat) : Option (List PostcardRow) :=
  match s.session t with
  | some ⟨.postcards 2 .received 20 none,.inr (.ok (.postcards rows))⟩ => some rows
  | _ => none

theorem of_mailbox {s : Backend} {t : Nat} {rows : List PostcardRow}
    (answered : mailboxOf s t = some rows) :
    s.session t = some ⟨.postcards 2 .received 20 none,.inr (.ok (.postcards rows))⟩ := by
  unfold mailboxOf at answered
  split at answered
  next present =>
    cases answered
    exact present
  next => cases answered

theorem openedMailbox : ∃ s rows, Reachable settings Rat.sqrt users s ∧ ¬ s.db.gone 2 ∧
    s.session 7 = some ⟨.postcards 2 .received 20 none,.inr (.ok (.postcards rows))⟩ ∧
    ∃ row ∈ rows, row.senderId = 1 ∧ postcardData row = none := by
  obtain ⟨s,_,reachable,passed⟩ := reached opened (fun s => !gone? s.db 2 &&
    (mailboxOf s 7).any fun rows => rows.any fun row =>
      row.senderId = 1 ∧ postcardData row = none) (by decide +kernel)
  obtain ⟨stays,shown⟩ := (Bool.and_eq_true _ _).mp passed
  obtain ⟨rows,answered,some_⟩ := (Option.any_eq_true _ _).mp shown
  obtain ⟨row,member,fails⟩ := List.any_eq_true.mp some_
  refine ⟨s,rows,reachable,?_,of_mailbox answered,row,member,of_decide_eq_true fails⟩
  intro left
  rw [gone_iff.mpr left] at stays
  cases stays

end Sample

theorem postcardsShown_opened : ∃ (s here : Backend) (row : PostcardRow),
    Reachable Sample.settings Rat.sqrt Sample.users s ∧
    Reach (program Sample.settings Rat.sqrt) Discipline.none here s ∧ ¬ here.db.gone 2 ∧
    ((postcardData row).isSome ↔ ¬ here.db.anonymous (row.other 2)) ∧ here.db.anonymous (row.other 2) := by
  obtain ⟨s,rows,reachable,stays,ended,row,member,_,fails⟩ := Sample.openedMailbox
  obtain ⟨here,reached,later,each⟩ := postcardsShown reachable rfl ended
  have present : ¬ here.db.gone 2 := fun gone => stays (gone_of_reach reached later gone)
  have shown := (each row member).2 present
  refine ⟨s,here,row,reachable,later,present,shown,?_⟩
  by_contra named
  have made := shown.mpr named
  rw [fails] at made
  cases made

/-- A mailbox with a postcard of a user who has withdrawn cannot be shown. -/
theorem postcard_unshown : ¬ ∀ (settings : Settings) (users : Table User.id) (s : Backend) (t : Nat)
    (r : Request) (viewer : UUID) (response : Response), Reachable settings Rat.sqrt users s →
      ¬ s.db.gone viewer → r.viewer = some viewer → s.session t = some ⟨r,.inr (.ok response)⟩ →
      ∀ row ∈ response.postcardRows, (postcardData row).isSome := by
  intro claim
  obtain ⟨s,rows,reachable,stays,ended,row,member,_,fails⟩ := Sample.openedMailbox
  have shown := claim _ _ s 7 _ 2 _ reachable stays rfl ended row member
  rw [fails] at shown
  cases shown

end Dalm
