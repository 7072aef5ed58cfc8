import Dalm.Reachable

/-! The postcards of a match in the order of their commits. The turn is read off the
postcard with the latest time and id, which need not be the one committed last. -/
namespace Dalm
open Relational PostcardRepository

/-- The two take turns, the first one in front. -/
def takeTurns (first second : UUID) (cards : List Postcard) : Prop :=
  ∀ k card, cards[k]? = some card → card.senderId = if k % 2 = 0 then first else second

/-- Whenever a postcard was committed, the latest by time and id and the last committed
before it were of one sender. -/
def inStep (cards : List Postcard) : Prop :=
  ∀ before card after, cards = before ++ card :: after →
    lastOf before = before.getLast?.map Postcard.senderId

/-- What every sending checked: the sender takes part, opens or answers the latest. -/
structure Answers (first second : UUID) (before : List Postcard) (card : Postcard) : Prop where
  party : card.senderId = first ∨ card.senderId = second
  opening : before = [] → card.senderId = first
  reply : lastOf before ≠ some card.senderId

def answered (first second : UUID) (cards : List Postcard) : Prop :=
  ∀ before card after, cards = before ++ card :: after → Answers first second before card

section cards
variable {first second : UUID} {cards : List Postcard}

theorem lastOf_mem {cards : List Postcard} (some_ : cards ≠ []) : ∃ card ∈ cards, lastOf cards = some card.senderId := by
  have perm := List.perm_insertionSort sentLater cards
  cases same : cards.insertionSort sentLater with
  | nil =>
    rw [same] at perm
    exact absurd perm.symm.eq_nil some_
  | cons top rest =>
    rw [same] at perm
    refine ⟨top,perm.mem_iff.mp List.mem_cons_self,?_⟩
    rw [lastOf,same]
    rfl

theorem takeTurns_concat {last card : Postcard} (turns : takeTurns first second (cards ++ [last]))
    (parties : card.senderId = first ∨ card.senderId = second) (reply : card.senderId ≠ last.senderId) :
    takeTurns first second (cards ++ [last] ++ [card]) := by
  intro k other found
  rw [List.getElem?_append] at found
  split at found
  next => exact turns k other found
  next past =>
    have before := turns cards.length last (by simp)
    simp only [List.length_append,List.length_singleton] at found past
    have only : k = cards.length + 1 := by
      by_contra beyond
      have none : ([card] : List Postcard)[k - (cards.length + 1)]? = none :=
        List.getElem?_eq_none (by simp only [List.length_singleton]; omega)
      rw [none] at found
      cases found
    subst only
    rw [Nat.sub_self] at found
    cases Option.some.inj found
    rw [before] at reply
    split at reply
    next even =>
      rw [if_neg (by omega)]
      exact parties.resolve_left reply
    next odd =>
      rw [if_pos (by omega)]
      exact parties.resolve_right reply

/-- Where every sending answered the latest postcard, the two take turns exactly when the
latest was always of the sender of the last. -/
theorem takeTurns_iff_inStep (sent : answered first second cards) :
    takeTurns first second cards ↔ inStep cards := by
  constructor
  · rintro turns before card after rfl
    rcases List.eq_nil_or_concat' before with rfl | ⟨earlier,last,rfl⟩
    · rfl
    · obtain ⟨top,member,latest⟩ := lastOf_mem (List.concat_ne_nil last earlier)
      have answers := sent _ card after rfl
      have reply : top.senderId ≠ card.senderId := fun same => answers.reply (by rw [latest,same])
      have party : top.senderId = first ∨ top.senderId = second := by
        obtain ⟨one,two,same⟩ := List.append_of_mem member
        exact (sent one top (two ++ card :: after) (by rw [same]; simp)).party
      have one := turns earlier.length last (by simp)
      have two := turns (earlier.length + 1) card (by simp)
      rw [latest,List.getLast?_concat,Option.map_some,Option.some.injEq]
      by_cases even : earlier.length % 2 = 0
      · rw [if_pos even] at one
        rw [if_neg (by omega)] at two
        rw [one]
        exact party.resolve_right fun same => reply (by rw [same,two])
      · rw [if_neg even] at one
        rw [if_pos (by omega)] at two
        rw [one]
        exact party.resolve_left fun same => reply (by rw [same,two])
  · intro step
    induction cards using List.reverseRecOn with
    | nil =>
      intro k card found
      cases found
    | append_singleton cards card ih =>
      have turns := ih (fun before other after same => sent before other (after ++ [card]) (by rw [same]; simp))
        fun before other after same => step before other (after ++ [card]) (by rw [same]; simp)
      have answers := sent cards card [] rfl
      rcases List.eq_nil_or_concat' cards with rfl | ⟨earlier,last,rfl⟩
      · intro k other found
        cases k with
        | zero =>
          cases Option.some.inj found
          exact answers.opening rfl
        | succ k => cases found
      · refine takeTurns_concat turns answers.party fun same => answers.reply ?_
        rw [step _ card [] rfl,List.getLast?_concat,Option.map_some,same]

end cards

/-- Every postcard of every match answered the ones before it. -/
def InTurn (w : BackendWorld) : Prop :=
  ∀ m, envelopes w.db m = [] ∨ ∃ first second, Pair w.db m first second ∧
    answered first.1.userId second.1.userId (envelopes w.db m)

section changes
variable {settings : Settings} {r : Request} {t : Nat} {held : List RowKey} {w : BackendWorld}
  {db : Db} {events : List Event} {m : UUID} {first second : MatchParticipant × Photo}

private theorem Change.entry {k : UUID × UUID} {row : MatchParticipant} {photo : Photo}
    (change : Change settings r t held w db events) (found : w.db.participants.get? k = some row)
    (owner : w.db.photos.get? row.photoId = some photo) : ∃ row' photo',
      db.participants.get? k = some row' ∧ db.photos.get? row'.photoId = some photo' ∧
      row'.userId = k.2 ∧ photo'.registeredAt = photo.registeredAt ∧ photo'.id = photo.id := by
  obtain ⟨row',after,_,same⟩ := change.steady.participant k row found
  obtain ⟨photo',present,_,follows⟩ := change.photo owner
  refine ⟨row',photo',after,by rw [same]; exact present,congrArg Prod.snd (Table.key_of_get? after),
    follows.registered,?_⟩
  exact (Table.key_of_get? present).trans (Table.key_of_get? owner).symm

theorem Change.pair (change : Change settings r t held w db events) (pair : Pair w.db m first second) :
    ∃ first' second', Pair db m first' second' ∧ first'.1.userId = first.1.userId ∧
      second'.1.userId = second.1.userId := by
  obtain ⟨row₁,photo₁,found₁,owner₁,user₁,time₁,id₁⟩ := change.entry pair.firstRow pair.firstPhoto
  obtain ⟨row₂,photo₂,found₂,owner₂,user₂,time₂,id₂⟩ := change.entry pair.secondRow pair.secondPhoto
  refine ⟨(row₁,photo₁),(row₂,photo₂),⟨by rw [user₁]; exact found₁,by rw [user₂]; exact found₂,owner₁,
    owner₂,?_,?_⟩,user₁,user₂⟩
  · rw [user₁,user₂]
    exact pair.apart
  · have ordered := pair.ordered
    unfold registeredBefore at ordered ⊢
    rw [time₁,time₂,id₁,id₂]
    exact ordered

theorem envelopes_same {before after : Db}
    (same : after.postcards.rows.map Postcard.envelope = before.postcards.rows.map Postcard.envelope) :
    envelopes after m = envelopes before m := by
  rw [envelopes,envelopes,same]

theorem envelopes_sent {before after : Db} {card : Postcard}
    (sent : after.postcards.rows.map Postcard.envelope =
      before.postcards.rows.map Postcard.envelope ++ [card]) :
    envelopes after m = envelopes before m ++ if card.matchId = m then [card] else [] := by
  rw [envelopes,envelopes,sent,List.filter_append]
  split
  next same => simp [same]
  next other => simp [other]

theorem answered_concat {u v : UUID} {cards : List Postcard} {card : Postcard}
    (before : answered u v cards) (answers : Answers u v cards card) : answered u v (cards ++ [card]) := by
  intro one other two same
  rcases World.told_cases same with ⟨two,same⟩ | ⟨between,rfl,new⟩
  · exact before one other two same
  · cases between with
    | nil =>
      cases new
      rw [List.append_nil]
      exact answers
    | cons _ between => exact absurd (congrArg List.length new) (by simp)

/-- A postcard that may be sent answers the ones before it. -/
theorem Sending.answers {draft : Draft} {receiverId : UUID} {card : Postcard}
    (sending : Sending r held w.db draft first second receiverId) (sender : card.senderId = draft.userId) :
    Answers first.1.userId second.1.userId (envelopes w.db draft.matchId) card where
  party := by
    rw [sender]
    exact sending.parties.imp And.left And.left
  opening nothing := by
    rw [sender]
    apply sending.turn
    rw [lastSender_eq,nothing]
    rfl
  reply := by
    rw [sender,← lastSender_eq]
    exact sending.reply

theorem Change.inTurn (change : Change settings r t held w db events) (inv : Inv settings w)
    (before : InTurn w) : InTurn ((World.mk db w.log).record t events) := by
  have unchanged : ∀ {m}, envelopes db m = envelopes w.db m →
      envelopes db m = [] ∨ ∃ first second, Pair db m first second ∧
        answered first.1.userId second.1.userId (envelopes db m) := by
    intro m same
    rw [same]
    rcases before m with nothing | ⟨first,second,pair,sent⟩
    · exact .inl nothing
    · obtain ⟨first',second',pair',one,two⟩ := change.pair pair
      exact .inr ⟨first',second',pair',by rw [one,two]; exact sent⟩
  intro m
  rcases change.steady.cards with same | ⟨draft,first,second,receiverId,start,ids,sending,_,sent⟩
  · exact unchanged (envelopes_same same)
  · have appended := envelopes_sent (m := m) sent
    split at appended
    next here =>
      have equal : draft.matchId = m := here
      subst equal
      have earlier : answered first.1.userId second.1.userId (envelopes w.db draft.matchId) := by
        rcases before draft.matchId with nothing | ⟨first',second',pair,sent⟩
        · rw [nothing]
          intro one card two same
          exact absurd same (by simp)
        · obtain ⟨one,two⟩ := Pair.unique inv sending.pair pair
          rw [one,two] at sent
          exact sent
      obtain ⟨first',second',pair',one,two⟩ := change.pair sending.pair
      refine .inr ⟨first',second',pair',?_⟩
      change answered _ _ (envelopes db draft.matchId)
      rw [appended,one,two]
      exact answered_concat earlier (sending.answers rfl)
    next elsewhere =>
      rw [List.append_nil] at appended
      exact unchanged appended

end changes

section runs
variable {K : Type} [Field K] [LinearOrder K] [IsStrictOrderedRing K] [FloorRing K]
  {settings : Settings} {sqrt : ℚ → K} {users : Table User.id} {s : Backend} {m : UUID}
  {first second : MatchParticipant × Photo}

theorem Reachable.answered (reachable : Reachable settings sqrt users s)
    (pair : Pair s.world.db m first second) :
    answered first.1.userId second.1.userId (envelopes s.world.db m) := by
  have start : Reachable settings sqrt users (launch users) := .refl
  have all : InTurn s.world := by
    refine start.preserves (F := InTurn) reachable (fun m => .inl rfl) ?_
    exact fun r t held a db events inv change _ before => change.inTurn inv before
  rcases all m with nothing | ⟨first',second',pair',sent⟩
  · rw [nothing]
    intro one card two same
    exact absurd same (by simp)
  · obtain ⟨one,two⟩ := Pair.unique reachable.inv pair pair'
    rw [one,two] at sent
    exact sent

/-- The two users of a match alternate exactly where the commits were in step with time. -/
theorem postcardsAlternate (reachable : Reachable settings sqrt users s)
    (pair : Pair s.db m first second) :
    takeTurns first.1.userId second.1.userId (envelopes s.db m) ↔ inStep (envelopes s.db m) :=
  takeTurns_iff_inStep (reachable.answered pair)

end runs

namespace Sample

def letter (user key : UUID) : Request := .send ⟨user,300,"안녕하세요".toList,some key⟩

/-- A postcard of the second user whose transaction starts before the first user's and
commits after it, and then another one. -/
def crossed : List (Action Input Exc Request) :=
  matched ++ session 4 (letter 2 92) 1 (input 6 400) ++ session 5 (letter 1 91) 12 (input 7 500) ++
    List.replicate 11 (.exec 4 (input 8 400)) ++ session 6 (letter 2 93) 12 (input 9 600)

private def paired? (db : Db) (first second : UUID) : Bool :=
  (db.participants.get? (300,first)).any fun a => (db.participants.get? (300,second)).any fun b =>
    (db.photos.get? a.photoId).any fun p => (db.photos.get? b.photoId).any fun q =>
      a.userId = first ∧ b.userId = second ∧ first ≠ second ∧ registeredBefore (a,p) (b,q)

private theorem pair_of_paired {db : Db} {u v : UUID} (passes : paired? db u v = true) :
    ∃ first second, Pair db 300 first second ∧ first.1.userId = u ∧ second.1.userId = v := by
  obtain ⟨a,row₁,passes⟩ := (Option.any_eq_true _ _).mp passes
  obtain ⟨b,row₂,passes⟩ := (Option.any_eq_true _ _).mp passes
  obtain ⟨p,photo₁,passes⟩ := (Option.any_eq_true _ _).mp passes
  obtain ⟨q,photo₂,passes⟩ := (Option.any_eq_true _ _).mp passes
  obtain ⟨rfl,rfl,apart,ordered⟩ := of_decide_eq_true passes
  exact ⟨(a,p),(b,q),⟨row₁,row₂,photo₁,photo₂,apart,ordered⟩,rfl,rfl⟩

end Sample

theorem postcardsAlternate_crossed : ∃ (s : Backend) (first second : MatchParticipant × Photo),
    (envelopes s.db 300).map Postcard.senderId = [1,2,2] ∧ Pair s.db 300 first second ∧
      (takeTurns first.1.userId second.1.userId (envelopes s.db 300) ↔ inStep (envelopes s.db 300)) := by
  obtain ⟨s,_,reachable,passed⟩ := Sample.reached Sample.crossed (fun s =>
    Sample.paired? s.db 1 2 ∧ (envelopes s.db 300).map Postcard.senderId = [1,2,2]) (by decide +kernel)
  obtain ⟨paired,senders⟩ := of_decide_eq_true passed
  obtain ⟨first,second,pair,_,_⟩ := Sample.pair_of_paired paired
  exact ⟨s,first,second,senders,pair,postcardsAlternate reachable pair⟩

theorem turn_taken_twice : ¬ ∀ (settings : Settings) (users : Table User.id) (s : Backend) (m : UUID)
    (first second : MatchParticipant × Photo), Reachable settings Rat.sqrt users s →
      Pair s.db m first second → takeTurns first.1.userId second.1.userId (envelopes s.db m) := by
  intro claim
  obtain ⟨s,_,reachable,passed⟩ := Sample.reached Sample.crossed (fun s =>
    Sample.paired? s.db 1 2 ∧ ((envelopes s.db 300)[2]?).map Postcard.senderId = some 2)
    (by decide +kernel)
  obtain ⟨paired,third⟩ := of_decide_eq_true passed
  obtain ⟨first,second,pair,one,_⟩ := Sample.pair_of_paired paired
  obtain ⟨card,found,sender⟩ := Option.map_eq_some_iff.mp third
  have turn := claim _ _ s 300 first second reachable pair 2 card found
  rw [sender,one,if_pos rfl] at turn
  exact absurd turn (by decide)

end Dalm
