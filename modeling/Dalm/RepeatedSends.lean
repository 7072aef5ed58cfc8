import Dalm.PostcardOrder
import Dalm.Relational.Notes

/-! Sending the same postcard again. A request with an idempotency key looks for the postcard of the
key before it waits for the participants: one that looked before the postcard was committed does
not look again. -/
namespace Dalm
open Relational Txn

/-- The sender of a postcard gets its row. -/
theorem Inv.selects {settings : Settings} {w : BackendWorld} (inv : Inv settings w) {card : Postcard}
    (member : card ∈ w.db.postcards.rows) (kept : card.senderDeletedAt = none) :
    ∃ row, ((w.db.postcards.get? card.id).filter (PostcardRepository.isVisible card.senderId)).bind
      (PostcardRepository.rowOf w.db card.senderId) = some row ∧ row.id = card.id := by
  obtain ⟨participant,seat⟩ := Option.isSome_iff_exists.mp (inv.postcards.sender card member)
  obtain ⟨_,photo,image,_⟩ := inv.matches_.participant _ _ participant seat
  obtain ⟨sender,one,_⟩ := inv.onboarded (inv.postcards.sender card member)
  obtain ⟨receiver,two,_⟩ := inv.onboarded (inv.postcards.receiver card member)
  have visible : PostcardRepository.isVisible card.senderId card = true := by
    simp [PostcardRepository.isVisible,kept]
  let row : PostcardRepository.PostcardRow := ⟨card.id,card.matchId,card.senderId,sender.nickname,
    card.receiverId,receiver.nickname,card.content,card.readAt,card.sentAt,photo.imageUrl⟩
  refine ⟨row,?_,rfl⟩
  rw [Table.get?_of_mem member,Option.filter_some,if_pos visible]
  simp [PostcardRepository.rowOf,one,two,seat,image,row]

namespace PostcardRepository
variable {draft : Draft} {key : UUID}

/-- The postcard of this sender with this key. -/
def Draft.Keyed (draft : Draft) (key : UUID) (card : Postcard) : Prop :=
  card.senderId = draft.userId ∧ card.idempotencyKey = some key

instance (card : Postcard) : Decidable (draft.Keyed key card) := inferInstanceAs (Decidable (_ ∧ _))

/-- The session of a request for a row. -/
def reply (p : App PostcardRow) : App Response := p >>= fun row => return .postcard row

/-- What a request with a key does once it has begun. -/
def lookUp (draft : Draft) (key : UUID) (start : Time) : App PostcardRow := do
  let existing ← query fun db => (db.postcards.rows.find? fun row => draft.Keyed key row).map Postcard.id
  match existing with
  | some id => get draft.userId id
  | none => deliver draft start

theorem send_eq (keyed : draft.idempotencyKey = some key) :
    send draft = supply >>= fun start => lookUp draft key start.now := by
  unfold send
  rw [keyed]
  rfl

/-- The last statements of a delivery: the commit and the read of the row. -/
def post (draft : Draft) (receiverId : UUID) (start : Time) : App PostcardRow := do
  let ids ← commitOr alreadySent (sendWrites draft receiverId start)
  get draft.userId (ids.uuid 0)

def book (draft : Draft) : Notebook Db RowKey Input Event Exc Response Unit where
  note _ _ := ()
  fade _ := ()
  raises _ _ := True
  commits _ p := ∃ receiverId start, p = reply (post draft receiverId start)

theorem gathers_lockParticipants (rows : List (MatchParticipant × Photo)) :
    (lockParticipants rows).Gathers := by
  induction rows with
  | nil => trivial
  | cons row rest ih =>
    intro participant photo
    change (Txn.bind (lockParticipants rest) _).Gathers
    refine gathers_bind ih fun others => ?_
    split <;> trivial

theorem notes_deliver (draft : Draft) (start : Time) : (reply (deliver draft start)).Notes (book draft) () := by
  refine fun db => ?_
  change (Txn.bind (Txn.bind (lockParticipants _) _) _).Notes (book draft) ()
  rw [Txn.bind_assoc]
  refine notes_bind (gathers_lockParticipants _) fun rows _ => ?_
  split
  next => trivial
  next firstId receiverId _ =>
    refine fun db => ?_
    change (Txn.bind (if _ then _ else _) _).Notes _ _
    split
    next => trivial
    next =>
      refine fun db => ?_
      change (Txn.bind (if _ then _ else _) _).Notes _ _
      split
      next => trivial
      next =>
        split
        next => trivial
        next => exact ⟨receiverId,start,rfl⟩

/-- A request that has not looked for its key yet. -/
inductive Awaits (draft : Draft) (key : UUID) : App Response → Prop where
  | begin : Awaits draft key (reply (send draft))
  | look (start : Time) : Awaits draft key (reply (lookUp draft key start))

/-- Where a request with a key stands: before it has looked, on its way to a commit as long as no
postcard of the key is there, or with one that is. -/
inductive Stands (draft : Draft) (key : UUID) (db : Db) : App Response ⊕ Except Exc Response → Prop where
  | waiting {p : App Response} (awaits : Awaits draft key p) : Stands draft key db (.inl p)
  | unposted {p : App Response} (absent : ∀ card ∈ db.postcards.rows, ¬ draft.Keyed key card)
      (notes : p.Notes (book draft) ()) : Stands draft key db (.inl p)
  | reading {card : Postcard} (member : card ∈ db.postcards.rows) (keyed : draft.Keyed key card) :
    Stands draft key db (.inl (reply (get draft.userId card.id)))
  | found {card : Postcard} {row : PostcardRow} (member : card ∈ db.postcards.rows)
      (keyed : draft.Keyed key card) (same : row.id = card.id) :
    Stands draft key db (.inl (.ret (.postcard row)))
  | replied {card : Postcard} {row : PostcardRow} (member : card ∈ db.postcards.rows)
      (keyed : draft.Keyed key card) (same : row.id = card.id) :
    Stands draft key db (.inr (.ok (.postcard row)))
  | failed {error : Exc} : Stands draft key db (.inr (.error error))

/-- Nobody has deleted the sender's copy of a postcard with the key. -/
def Kept (draft : Draft) (key : UUID) (db : Db) : Prop :=
  ∀ card ∈ db.postcards.rows, draft.Keyed key card → card.senderDeletedAt = none

section steps
variable {settings : Settings} {t : Nat} {i : Input} {p : App Response} {db : Db}
  {store store' : Store Db RowKey Event} {state : App Response ⊕ Except Exc Response}

/-- What a request with a key makes of where it stood; it fails only where no postcard of the key
is there. -/
theorem Stands.exec (inv : Inv settings store.world) (kept : Kept draft key store.world.db)
    (keyed : draft.idempotencyKey = some key)
    (stands : Stands draft key store.world.db (.inl p)) (ran : p.exec t i store = some (store',state)) :
    Stands draft key store'.world.db state ∧
      ((∃ card ∈ store.world.db.postcards.rows, draft.Keyed key card) →
        ∀ error, state ≠ .inr (.error error)) := by
  cases stands with
  | waiting awaits =>
    cases awaits with
    | begin =>
      rw [send_eq keyed] at ran
      cases Option.some.inj ran
      exact ⟨.waiting (.look i.now),fun _ _ same => by cases same⟩
    | look start =>
      cases Option.some.inj ran
      refine ⟨?_,fun _ _ same => by cases same⟩
      simp only [Txn.bind]
      split
      next id listed =>
        obtain ⟨card,found,rfl⟩ := Option.map_eq_some_iff.mp listed
        have chosen := List.find?_some found
        exact .reading (List.mem_of_find?_eq_some found) (of_decide_eq_true chosen)
      next listed =>
        rw [Option.map_eq_none_iff] at listed
        refine .unposted (fun card member => ?_) (notes_deliver draft start)
        exact of_decide_eq_false (by simpa using List.find?_eq_none.mp listed card member)
  | unposted absent notes =>
    have unfailed : (∃ card ∈ store.world.db.postcards.rows, draft.Keyed key card) →
        ∀ error, state ≠ .inr (.error error) := by
      rintro ⟨card,member,same⟩
      exact absurd same (absent card member)
    refine ⟨?_,unfailed⟩
    cases last : p.isCommit with
    | false =>
      obtain ⟨same,noted⟩ := notes.exec ran last
      cases noted with
      | read notes | other notes => exact .unposted (by rwa [same]) notes
      | raised => exact .failed
    | true =>
      cases p with
      | commit writes next =>
        obtain ⟨receiverId,start,posts⟩ := notes
        rw [posts] at ran
        rcases exec_commit ran with ⟨db,events,written,same,rfl⟩ | ⟨refused,rfl,rfl⟩
        · obtain ⟨_,fresh,_,rfl⟩ := sendWrites_eq written
          have member : newPostcard draft receiverId start i ∈ store'.world.db.postcards.rows := by
            rw [same]
            exact List.mem_append_right _ List.mem_cons_self
          exact .reading member ⟨rfl,keyed⟩
        · exact .unposted absent trivial
      | _ => cases last
  | @reading card member same =>
    cases Option.some.inj ran
    obtain ⟨row,selected,id⟩ := inv.selects member (kept card member same)
    refine ⟨?_,fun _ _ same => by cases same⟩
    rw [same.1] at selected
    simp only [Txn.bind,selected]
    exact .found member same id
  | found member same id =>
    cases Option.some.inj ran
    exact ⟨.replied member same id,fun _ _ same => by cases same⟩

end steps
end PostcardRepository
section runs
open PostcardRepository
variable {K : Type} [Field K] [LinearOrder K] [IsStrictOrderedRing K] [FloorRing K]
  {settings : Settings} {sqrt : ℚ → K} {users : Table User.id} {s u : Backend} {t : Nat}
  {draft : Draft} {key : UUID} {action : Action Input Exc Request}

/-- A postcard with the key is there. -/
def Posted (draft : Draft) (key : UUID) (db : Db) : Prop := ∃ card ∈ db.postcards.rows, draft.Keyed key card

/-- What the requests are in for: none of them dies, and nobody deletes their postcard. -/
structure Undeleted (draft : Draft) (key : UUID) (s : Backend) (action : Action Input Exc Request)
    (u : Backend) : Prop where
  alive : ∀ t error, action = .die t error → ∀ state, s.session t ≠ some ⟨.send draft,state⟩
  kept : Kept draft key u.db

/-- Where the step posts the postcard, no other of the requests has looked for it and gone on. -/
def Unraced (draft : Draft) (key : UUID) (s : Backend) (action : Action Input Exc Request) (u : Backend) :
    Prop :=
  ¬ Posted draft key s.db → Posted draft key u.db → ∀ t p, t ≠ Reach.Action.session action →
    s.session t = some ⟨.send draft,.inl p⟩ → Awaits draft key p

/-- The requests with a key send one postcard: who is answered gets it, and who ends when it is there
is answered. -/
structure Repeatable (draft : Draft) (key : UUID) (run : Request → App Response)
    (R : Backend → Action Input Exc Request → Backend → Prop) (start s : Backend) : Prop where
  single : ∀ card ∈ s.db.postcards.rows, ∀ other ∈ s.db.postcards.rows,
    draft.Keyed key card → draft.Keyed key other → card = other
  returned : ∀ t response, s.session t = some ⟨.send draft,.inr (.ok response)⟩ →
    ∃ card ∈ s.db.postcards.rows, draft.Keyed key card ∧ ∃ row, response = .postcard row ∧ row.id = card.id
  repeated : ∀ earlier t x, Runs run R start earlier → Runs run R earlier s →
    Posted draft key earlier.db → (∀ y, earlier.session t ≠ some ⟨.send draft,.inr y⟩) →
    s.session t = some ⟨.send draft,.inr x⟩ →
    ∃ card ∈ s.db.postcards.rows, draft.Keyed key card ∧ ∃ row, x = .ok (.postcard row) ∧ row.id = card.id

section changes
variable {r : Request} {held : List RowKey} {w : BackendWorld} {db : Db} {events : List Event}

theorem keyed_envelope {card : Postcard} : draft.Keyed key card.envelope ↔ draft.Keyed key card := Iff.rfl

theorem of_envelope {card card' : Postcard} (same : card'.envelope = card.envelope)
    (keyed : draft.Keyed key card) : draft.Keyed key card' ∧ card'.id = card.id := by
  have id : card'.envelope.id = card.envelope.id := by rw [same]
  refine ⟨?_,id⟩
  rw [← keyed_envelope,same]
  exact keyed

theorem Change.keyed_stays (change : Change settings r t held w db events) {card : Postcard}
    (member : card ∈ w.db.postcards.rows) (keyed : draft.Keyed key card) :
    ∃ card' ∈ db.postcards.rows, draft.Keyed key card' ∧ card'.id = card.id := by
  have before := List.mem_map_of_mem (f := Postcard.envelope) member
  have after : card.envelope ∈ db.postcards.rows.map Postcard.envelope := by
    rcases change.steady.cards with same | ⟨_,_,_,_,_,_,_,_,same⟩
    · exact same ▸ before
    · exact same ▸ List.mem_append_left _ before
  obtain ⟨card',member',same⟩ := List.mem_map.mp after
  exact ⟨card',member',of_envelope same keyed⟩

theorem Change.keyed_single (change : Change settings r t held w db events)
    (single : ∀ card ∈ w.db.postcards.rows, ∀ other ∈ w.db.postcards.rows,
      draft.Keyed key card → draft.Keyed key other → card.id = other.id) :
    ∀ card ∈ db.postcards.rows, ∀ other ∈ db.postcards.rows,
      draft.Keyed key card → draft.Keyed key other → card.id = other.id := by
  have old : ∀ {card : Postcard}, card.envelope ∈ w.db.postcards.rows.map Postcard.envelope →
      draft.Keyed key card → ∃ card' ∈ w.db.postcards.rows, draft.Keyed key card' ∧ card'.id = card.id := by
    intro card inside keyed
    obtain ⟨card',member,same⟩ := List.mem_map.mp inside
    exact ⟨card',member,of_envelope same keyed⟩
  intro card member other member' keyed keyed'
  have inside := List.mem_map_of_mem (f := Postcard.envelope) member
  have inside' := List.mem_map_of_mem (f := Postcard.envelope) member'
  rcases change.steady.cards with same | ⟨sent,_,_,receiverId,start,ids,sending,_,same⟩
  · rw [same] at inside inside'
    obtain ⟨one,there,keyed,id⟩ := old inside keyed
    obtain ⟨two,there',keyed',id'⟩ := old inside' keyed'
    exact id.symm.trans ((single one there two there' keyed keyed').trans id')
  · rw [same,List.mem_append,List.mem_singleton] at inside inside'
    -- A postcard that is sent with the key of one that is there violates the constraint.
    have refused : ∀ {first second : Postcard}, first.envelope ∈ w.db.postcards.rows.map Postcard.envelope →
        second.envelope = newPostcard sent receiverId start ids → draft.Keyed key first →
        ¬ draft.Keyed key second := by
      intro first second inside new keyed keyed'
      obtain ⟨one,there,keyed,_⟩ := old inside keyed
      rw [← keyed_envelope,new] at keyed'
      have sender : sent.userId = draft.userId := keyed'.1
      have keys : sent.idempotencyKey = some key := keyed'.2
      rcases sending.unused with none_ | unused
      · cases none_.symm.trans keys
      · exact unused one there (by rw [sender,keys,keyed.1,keyed.2])
    rcases inside with inside | new <;> rcases inside' with inside' | new'
    · obtain ⟨one,there,keyed,id⟩ := old inside keyed
      obtain ⟨two,there',keyed',id'⟩ := old inside' keyed'
      exact id.symm.trans ((single one there two there' keyed keyed').trans id')
    · exact absurd keyed' (refused inside new' keyed)
    · exact absurd keyed (refused inside' new keyed')
    · have same : card.envelope.id = other.envelope.id := by rw [new,new']
      exact same

end changes

theorem Reachable.single (reachable : Reachable settings sqrt users s) :
    ∀ card ∈ s.db.postcards.rows, ∀ other ∈ s.db.postcards.rows,
      draft.Keyed key card → draft.Keyed key other → card = other := by
  have start : Reachable settings sqrt users (launch users) := .refl
  have ids := start.preserves (F := fun w => ∀ card ∈ w.db.postcards.rows, ∀ other ∈ w.db.postcards.rows,
    draft.Keyed key card → draft.Keyed key other → card.id = other.id) reachable
    (fun _ member => by cases member) fun _ _ _ _ _ _ _ change _ before => change.keyed_single before
  intro card member other member' keyed keyed'
  have same := ids card member other member' keyed keyed'
  have found := Table.get?_of_mem member
  rw [same,Table.get?_of_mem member'] at found
  exact (Option.some.inj found).symm

theorem Reachable.keyed_stays (reachable : Reachable settings sqrt users s)
    (taken : s.step (program settings sqrt) action = some u) {card : Postcard}
    (member : card ∈ s.db.postcards.rows) (keyed : draft.Keyed key card) :
    ∃ card' ∈ u.db.postcards.rows, draft.Keyed key card' ∧ card'.id = card.id := by
  rcases reachable.change taken with same | ⟨_,_,_,_,db,_,_,_,_,change,same⟩
  · rw [show u.db = s.db from congrArg World.db same]
    exact ⟨card,member,keyed,rfl⟩
  · rw [show u.db = db from congrArg World.db same]
    exact change.keyed_stays member keyed

/-- What the others do leaves a request where it stands, unless the postcard comes. -/
theorem PostcardRepository.Stands.others {state : App Response ⊕ Except Exc Response}
    (stands : Stands draft key s.db state) (reachable : Reachable settings sqrt users s)
    (there : s.session t = some ⟨.send draft,state⟩) (other : Reach.Action.session action ≠ t)
    (taken : s.step (program settings sqrt) action = some u) (unraced : Unraced draft key s action u) :
    Stands draft key u.db state := by
  cases stands with
  | waiting awaits => exact .waiting awaits
  | unposted absent notes =>
    by_cases posted : Posted draft key u.db
    · have before : ¬ Posted draft key s.db := fun ⟨card,member,keyed⟩ => absent card member keyed
      exact .waiting (unraced before posted t _ other.symm there)
    · exact .unposted (fun card member keyed => posted ⟨card,member,keyed⟩) notes
  | reading member keyed =>
    obtain ⟨card',member',keyed',same⟩ := reachable.keyed_stays taken member keyed
    rw [← same]
    exact .reading member' keyed'
  | found member keyed id =>
    obtain ⟨card',member',keyed',same⟩ := reachable.keyed_stays taken member keyed
    exact .found member' keyed' (id.trans same.symm)
  | replied member keyed id =>
    obtain ⟨card',member',keyed',same⟩ := reachable.keyed_stays taken member keyed
    exact .replied member' keyed' (id.trans same.symm)
  | failed => exact .failed

/-- In a run in which no request is caught between its look and the commit of another, a request
with a key can be repeated. -/
theorem repeatedSends (keyed : draft.idempotencyKey = some key)
    (runs : Runs (program settings sqrt)
      (fun s action u => Undeleted draft key s action u ∧ Unraced draft key s action u) (launch users) s) :
    Repeatable draft key (program settings sqrt)
      (fun s action u => Undeleted draft key s action u ∧ Unraced draft key s action u) (launch users) s := by
  have reached : ∀ {a}, Runs (program settings sqrt)
      (fun s action u => Undeleted draft key s action u ∧ Unraced draft key s action u) (launch users) a →
      Reachable settings sqrt users a := fun before =>
    Reach.of_runs before fun _ action _ _ => Reach.admits_none action
  have kept : ∀ {a}, Runs (program settings sqrt)
      (fun s action u => Undeleted draft key s action u ∧ Unraced draft key s action u) (launch users) a →
      Kept draft key a.db := by
    intro a before
    cases before with
    | refl => exact fun card member => by cases member
    | tail _ link =>
      obtain ⟨_,_,holds⟩ := link
      exact holds.1.kept
  have stands : ∀ {a}, Runs (program settings sqrt)
      (fun s action u => Undeleted draft key s action u ∧ Unraced draft key s action u) (launch users) a →
      ∀ t state, a.session t = some ⟨.send draft,state⟩ → Stands draft key a.db state := by
    intro a before t state present
    refine Reach.runs_session_rule (Q := fun s state => Stands draft key s.db state)
      before (fun _ => rfl) ?_ ?_ ?_ ?_ present
    · exact fun a _ _ => .waiting .begin
    · intro a i p store state before there stands ran taken holds
      exact (stands.exec (reached before).inv (kept before) keyed ran).1
    · exact fun a b error p before _ stands taken same holds => .failed
    · intro a action b state before there other stands taken holds
      exact stands.others (reached before) there other taken holds.2
  refine ⟨(reached runs).single,?_,?_⟩
  · intro t response ended
    cases stands runs t _ ended with
    | replied member same id => exact ⟨_,member,same,_,rfl,id⟩
  · intro earlier t x first second posted open_ ended
    have onward : Posted draft key s.db ∧ ∀ error, s.session t ≠ some ⟨.send draft,.inr (.error error)⟩ := by
      clear ended
      induction second with
      | refl => exact ⟨posted,fun error => open_ _⟩
      | @tail a b before link ih =>
        obtain ⟨action,taken,holds⟩ := link
        have here := first.trans before
        obtain ⟨⟨card,member,same⟩,unfailed⟩ := ih here
        obtain ⟨card',member',same',_⟩ := (reached here).keyed_stays taken member same
        refine ⟨⟨card',member',same'⟩,fun error failed => ?_⟩
        cases Reach.taken_of_step taken with
        | @start v q absent =>
          rcases eq_or_ne t v with rfl | other
          · cases Reach.put_self.symm.trans failed
          · exact unfailed error ((Reach.put_other other).symm.trans failed)
        | @exec v i q p store state running ran =>
          rcases eq_or_ne t v with rfl | other
          · cases Reach.put_self.symm.trans failed
            have done := (stands here t _ running).exec (reached here).inv (kept here) keyed ran
            exact done.2 ⟨card,member,same⟩ error rfl
          · exact unfailed error ((Reach.put_other other).symm.trans failed)
        | @die v error' q p running =>
          rcases eq_or_ne t v with rfl | other
          · cases Reach.put_self.symm.trans failed
            exact holds.1.alive t _ rfl _ running
          · exact unfailed error ((Reach.put_other other).symm.trans failed)
    cases x with
    | error error => exact absurd ended (onward.2 error)
    | ok response =>
      cases stands (first.trans second) t _ ended with
      | replied member same id => exact ⟨_,member,same,_,rfl,id⟩

end runs

namespace Sample
open PostcardRepository

def draft : Draft := ⟨1,300,"안녕하세요".toList,some 91⟩

/-- A session of the request that goes on. -/
def sending (s : Backend) (t : Nat) : Bool :=
  match s.session t with
  | some ⟨.send _,.inl _⟩ => true
  | _ => false

def posted (db : Db) : Bool := db.postcards.rows.any fun card => draft.Keyed 91 card

/-- Nobody dies, nobody deletes and only the first sessions act. -/
def isUndeleted (_ : Backend) (action : Action Input Exc Request) (u : Backend) : Bool :=
  (match action with
    | .die _ _ => false
    | _ => true) &&
  u.db.postcards.rows.all fun card => card.senderDeletedAt = none

/-- The session that posts is the only one that is sending. -/
def isUnraced (s : Backend) (action : Action Input Exc Request) (u : Backend) : Bool :=
  decide (Reach.Action.session action < 8) &&
    (posted s.db || !posted u.db || (List.range 8).all fun t => t = Reach.Action.session action || !sending s t)

theorem undeleted_of_check {s u : Backend} {action : Action Input Exc Request}
    (passes : isUndeleted s action u = true) : Undeleted draft 91 s action u := by
  obtain ⟨alive,kept⟩ := (Bool.and_eq_true _ _).mp passes
  refine ⟨fun t error same => ?_,fun card member _ => ?_⟩
  · rw [same] at alive
    cases alive
  · exact of_decide_eq_true (List.all_eq_true.mp kept card member)

theorem posted_iff {db : Db} : posted db = true ↔ Posted draft 91 db := by
  simp [posted,Posted]

theorem sending_of_session {s : Backend} {t : Nat} {d : Draft} {p : App Response}
    (there : s.session t = some ⟨.send d,.inl p⟩) : sending s t = true := by
  unfold sending
  rw [there]

theorem unraced_of_check {s : Backend}
    (runs : Runs (program settings Rat.sqrt)
      (fun s action u => isUndeleted s action u = true ∧ isUnraced s action u = true) (launch users) s) :
    Runs (program settings Rat.sqrt)
      (fun s action u => Undeleted draft 91 s action u ∧ Unraced draft 91 s action u) (launch users) s := by
  refine Reach.runs_imp runs fun a action b before _ holds => ⟨undeleted_of_check holds.1,?_⟩
  intro absent there t p other present
  obtain ⟨_,alone⟩ := (Bool.and_eq_true _ _).mp holds.2
  have early : t < 8 := by
    by_contra late
    have idle : a.session t = none := Reach.runs_idle before fun _ action _ own same => late (by
      rw [← same]
      exact of_decide_eq_true ((Bool.and_eq_true _ _).mp own.2).1)
    rw [idle] at present
    cases present
  rw [Bool.or_eq_true,Bool.or_eq_true,Bool.not_eq_true'] at alone
  rcases alone with (yes | no) | all
  · exact absurd (posted_iff.mp yes) absent
  · rw [posted_iff.mpr there] at no
    cases no
  · have quiet := List.all_eq_true.mp all t (List.mem_range.mpr early)
    rw [sending_of_session present] at quiet
    simp [other] at quiet

/-- A send, and the same again. -/
def sentAgain : List (Action Input Exc Request) :=
  matched ++ session 4 (.send draft) 12 (input 6 400) ++ session 5 (.send draft) 4 (input 7 500)

/-- A send that looks for the postcard, and one that commits it before the first goes on. -/
def overlapped : List (Action Input Exc Request) :=
  matched ++ session 4 (.send draft) 2 (input 6 400) ++ session 5 (.send draft) 12 (input 7 500)

/-- Session 4 is a request of the draft that goes on. -/
def isOpen (s : Backend) : Bool :=
  match s.session 4 with
  | some ⟨.send d,.inl _⟩ => d = draft
  | _ => false

/-- The error session 4, a request of the draft, ended in. -/
def refusal (s : Backend) : Option Exc :=
  match s.session 4 with
  | some ⟨.send d,.inr (.error error)⟩ => if d = draft then some error else none
  | _ => none

theorem of_isOpen {s : Backend} (found : isOpen s = true) : ∃ p, s.session 4 = some ⟨.send draft,.inl p⟩ := by
  unfold isOpen at found
  split at found
  next d p there =>
    cases of_decide_eq_true found
    exact ⟨p,there⟩
  next => cases found

theorem of_refusal {s : Backend} {error : Exc} (found : refusal s = some error) :
    s.session 4 = some ⟨.send draft,.inr (.error error)⟩ := by
  unfold refusal at found
  split at found
  next d other there =>
    split at found
    next same =>
      cases found
      exact same ▸ there
    next => cases found
  next => cases found

end Sample

theorem repeatedSends_retried : ∃ s, Repeatable Sample.draft 91 (program Sample.settings Rat.sqrt)
    (fun s action u => Undeleted Sample.draft 91 s action u ∧ Unraced Sample.draft 91 s action u)
    (launch Sample.users) s ∧ s.db.postcards.rows.length = 1 := by
  obtain ⟨s,runs,one⟩ := Sample.reachedWhile
    (fun s action u => Sample.isUndeleted s action u = true ∧ Sample.isUnraced s action u = true)
    (fun s action u => Sample.isUndeleted s action u && Sample.isUnraced s action u)
    (fun s action u _ passes => (Bool.and_eq_true _ _).mp passes) Sample.sentAgain
    (fun s => decide (s.db.postcards.rows.length = 1)) (by decide +kernel)
  exact ⟨s,repeatedSends rfl (Sample.unraced_of_check runs),of_decide_eq_true one⟩

/-- A request that looked before the postcard was there waits for its participants and is refused. -/
theorem overlapping_send_refused : ¬ ∀ (settings : Settings) (users : Table User.id) (s : Backend)
    (draft : PostcardRepository.Draft) (key : UUID), draft.idempotencyKey = some key →
    Runs (program settings Rat.sqrt) (fun s action u => Undeleted draft key s action u) (launch users) s →
      Repeatable draft key (program settings Rat.sqrt)
        (fun s action u => Undeleted draft key s action u) (launch users) s := by
  intro claim
  obtain ⟨s,u,first,found,second,ended⟩ := Sample.continued
    (fun s action u => Undeleted Sample.draft 91 s action u) Sample.isUndeleted
    (fun s action u passes => Sample.undeleted_of_check passes) Sample.overlapped
    (List.replicate 8 (.exec 4 (Sample.input 8 600)))
    (fun s => Sample.posted s.db && Sample.isOpen s) (fun u => (Sample.refusal u).isSome) (by decide +kernel)
  obtain ⟨posted,open_⟩ := (Bool.and_eq_true _ _).mp found
  obtain ⟨p,there⟩ := Sample.of_isOpen open_
  obtain ⟨error,failed⟩ := Option.isSome_iff_exists.mp ended
  have waiting : ∀ y, s.session 4 ≠ some ⟨.send Sample.draft,.inr y⟩ := by
    intro y same
    cases there.symm.trans same
  obtain ⟨_,_,_,_,answered,_⟩ := (claim _ _ u Sample.draft 91 rfl (first.trans second)).repeated s 4 _
    first second (Sample.posted_iff.mp posted) waiting (Sample.of_refusal failed)
  cases answered

end Dalm
