import Dalm.Programs

/-! Whose turn it is. The rows of both participants are held while a postcard is sent,
so between reading the last postcard and committing the next nobody else sends one. -/
namespace Dalm
open Relational Held
variable {settings : Settings} {D : Discipline Db Input Event} {r : Request} {t : Nat}
  {w : BackendWorld}

/-- The last sender, of a list of postcards. -/
def lastOf (cards : List Postcard) : Option UUID :=
  ((cards.insertionSort PostcardRepository.sentLater).head?).map Postcard.senderId

theorem lastSender_eq (m : UUID) (db : Db) :
    PostcardRepository.lastSender m db = lastOf (envelopes db m) := by
  have filtered : envelopes db m =
      (db.postcards.rows.filter fun card => card.matchId = m).map Postcard.envelope := by
    rw [envelopes,List.filter_map]
    rfl
  rw [PostcardRepository.lastSender,lastOf,filtered,
    ← List.map_insertionSort (r := PostcardRepository.sentLater),List.head?_map,Option.map_map]
  · rfl
  · intro a _ b _
    rfl

theorem registeredBefore_antisymm {first second : MatchParticipant × Photo}
    (forward : PostcardRepository.registeredBefore first second)
    (backward : PostcardRepository.registeredBefore second first) : first.2.id = second.2.id := by
  rcases forward with before | ⟨equal,before⟩
  · rcases backward with after | ⟨equal,_⟩
    · exact absurd after (lt_asymm before)
    · exact absurd equal before.ne'
  · rcases backward with after | ⟨_,after⟩
    · exact absurd equal after.ne'
    · exact le_antisymm before after

theorem Pair.unique {m : UUID} {first second first' second' : MatchParticipant × Photo}
    (inv : Inv settings w) (pair : Pair w.db m first second) (other : Pair w.db m first' second') :
    first'.1.userId = first.1.userId ∧ second'.1.userId = second.1.userId := by
  have there := (inv.matches_.participant m first.1.userId first.1 pair.firstRow).1
  obtain ⟨u,v,one,two,apart,_,_,_,only⟩ := inv.matches_.pair m there
  have member : ∀ {row : MatchParticipant}, w.db.participants.get? (m,row.userId) = some row →
      row.userId = u ∨ row.userId = v := fun found => only _ _ found
  have same : first'.1.userId = first.1.userId ∨
      (first'.1.userId = second.1.userId ∧ second'.1.userId = first.1.userId) := by
    have := member pair.firstRow
    have := member pair.secondRow
    have := member other.firstRow
    have := member other.secondRow
    have := pair.apart
    have := other.apart
    grind
  rcases same with same | ⟨one,two⟩
  · refine ⟨same,?_⟩
    have := member pair.firstRow
    have := member pair.secondRow
    have := member other.secondRow
    have := pair.apart
    have := other.apart
    grind
  · exfalso
    have rows : first'.1 = second.1 ∧ second'.1 = first.1 := by
      constructor
      · exact Option.some.inj (other.firstRow.symm.trans (one ▸ pair.secondRow))
      · exact Option.some.inj (other.secondRow.symm.trans (two ▸ pair.firstRow))
    have photos : first'.2 = second.2 ∧ second'.2 = first.2 := by
      constructor
      · exact Option.some.inj (other.firstPhoto.symm.trans (rows.1 ▸ pair.secondPhoto))
      · exact Option.some.inj (other.secondPhoto.symm.trans (rows.2 ▸ pair.firstPhoto))
    have backward := other.ordered
    simp only [PostcardRepository.registeredBefore,photos] at backward
    have ids := registeredBefore_antisymm pair.ordered backward
    have same : first.1.photoId = second.1.photoId := by
      rw [← Table.key_of_get? pair.firstPhoto,← Table.key_of_get? pair.secondPhoto,ids]
    have equal := inv.matches_.once _ _ _ _ pair.firstRow pair.secondRow same
    exact pair.apart (congrArg Prod.snd equal)

/-- What a row of the join keeps: its key, its photo and when that was registered. -/
structure SameEntry (listed entry : MatchParticipant × Photo) : Prop where
  key : entry.1.matchId = listed.1.matchId ∧ entry.1.userId = listed.1.userId
  photo : entry.1.photoId = listed.1.photoId ∧ entry.2.id = listed.1.photoId
  registered : entry.2.registeredAt = listed.2.registeredAt

/-- A row of the join, as listed or changed since. -/
def Joined (db : Db) (listed : MatchParticipant × Photo) : Prop :=
  (∃ row, db.participants.get? (listed.1.matchId,listed.1.userId) = some row ∧
    row.photoId = listed.1.photoId) ∧
  ∃ photo, db.photos.get? listed.1.photoId = some photo ∧
    photo.registeredAt = listed.2.registeredAt

private theorem Joined.later {listed : MatchParticipant × Photo} {H : Held Db RowKey}
    {w' : BackendWorld} (joined : Joined w.db listed) (later : Later (protocol settings) D t H w w') :
    Joined w'.db listed := by
  refine later_preserves (F := fun w => Joined w.db listed) later joined ?_
  rintro _ _ _ _ _ _ _ _ _ change ⟨⟨row,found,same⟩,photo,present,registered⟩
  obtain ⟨row',after,_,keeps⟩ := change.steady.participant _ row found
  obtain ⟨photo',remains,_,follows⟩ := change.photo present
  exact ⟨⟨row',after,keeps.trans same⟩,photo',remains,follows.registered.trans registered⟩

private theorem sameEntry_of_joined {db : Db} {listed : MatchParticipant × Photo}
    {row : MatchParticipant} {photo : Photo} (joined : Joined db listed)
    (found : db.participants.get? (listed.1.matchId,listed.1.userId) = some row)
    (present : db.photos.get? listed.1.photoId = some photo) : SameEntry listed (row,photo) := by
  obtain ⟨⟨other,there,same⟩,other',there',registered⟩ := joined
  cases Option.some.inj (there.symm.trans found)
  cases Option.some.inj (there'.symm.trans present)
  have key := Table.key_of_get? found
  exact ⟨Prod.ext_iff.mp key,⟨same,Table.key_of_get? present⟩,registered⟩

/-- An entry as both of its rows are held. -/
def HeldEntry (H : Held Db RowKey) (entry : MatchParticipant × Photo) : Prop :=
  (⟨.participant entry.1.matchId entry.1.userId,entry.1⟩ : (key : RowKey) × Lockable.Row Db key) ∈ H ∧
    (⟨.photo entry.1.photoId,entry.2⟩ : (key : RowKey) × Lockable.Row Db key) ∈ H

private theorem participant_entry {m u m' u' : UUID} {row : MatchParticipant} (one : m = m')
    (two : u = u') : (⟨.participant m u,row⟩ : (key : RowKey) × Lockable.Row Db key) =
      ⟨.participant m' u',row⟩ := by
  subst one two
  rfl

private theorem photo_entry {p p' : UUID} {photo : Photo} (same : p = p') :
    (⟨.photo p,photo⟩ : (key : RowKey) × Lockable.Row Db key) = ⟨.photo p',photo⟩ := by
  subst same
  rfl

/-- Every row of the join is held as it is now, in the order of the list. -/
theorem wp_lockParticipants {listed : List (MatchParticipant × Photo)} {H : Held Db RowKey}
    {Q : Except Exc (List (MatchParticipant × Photo)) → Held Db RowKey → BackendWorld → Prop}
    (inv : (protocol settings).inv w) (holds : Holds H w.db)
    (joined : ∀ entry ∈ listed, Joined w.db entry)
    (rest : ∀ rows K w', Later (protocol settings) D t H w w' → Holds (K ++ H) w'.db →
      (∀ entry ∈ rows, HeldEntry (K ++ H) entry) →
      (∃ found, found.Sublist listed ∧ List.Forall₂ SameEntry found rows) →
      Q (.ok rows) (K ++ H) w') :
    wp (protocol settings) D r t (PostcardRepository.lockParticipants listed) Q H w := by
  induction listed generalizing H w Q with
  | nil => exact rest [] [] w (Later.refl inv holds) holds (by simp) ⟨[],.slnil,.nil⟩
  | cons entry listed ih =>
    have tails : ∀ {w' : BackendWorld}, Later (protocol settings) D t H w w' →
        ∀ other ∈ listed, Joined w'.db other :=
      fun later other member => (joined other (List.mem_cons_of_mem _ member)).later later
    apply wp_row
    intro participant w₁ later₁ holds₁
    apply wp_row
    intro photo w₂ later₂ holds₂
    have until₂ : Later (protocol settings) D t H w w₂ :=
      later₁.trans (later₂.sublist (List.sublist_append_right _ _))
    apply wp_bind
    apply ih later₂.inv holds₂ (tails until₂)
    intro rows K w₃ later₃ holds₃ inside same
    obtain ⟨found,fewer,entries⟩ := same
    have until₃ : Later (protocol settings) D t H w w₃ :=
      until₂.trans (later₃.sublist ((List.sublist_append_right _ _).trans (List.sublist_append_right _ _)))
    rw [← List.append_assoc,← List.append_assoc] at holds₃ inside ⊢
    cases participant with
    | none => exact rest rows _ w₃ until₃ holds₃ inside ⟨found,fewer.cons _,entries⟩
    | some row =>
      cases photo with
      | none => exact rest rows _ w₃ until₃ holds₃ inside ⟨found,fewer.cons _,entries⟩
      | some photo =>
        have seen : Lockable.view (RowKey.participant entry.1.matchId entry.1.userId) w₂.db = some row :=
          later₂.holds ⟨_,row⟩ (by simp)
        have present : Lockable.view (RowKey.photo entry.1.photoId) w₂.db = some photo :=
          holds₂ ⟨_,photo⟩ (by simp)
        have one := sameEntry_of_joined ((joined entry List.mem_cons_self).later until₂) seen present
        refine rest _ _ w₃ until₃ holds₃ ?_ ⟨entry :: found,fewer.cons_cons _,.cons one entries⟩
        intro other member
        rcases List.mem_cons.mp member with rfl | member
        · refine ⟨?_,?_⟩
          · rw [participant_entry one.key.1 one.key.2]
            exact List.mem_append_left _ (List.mem_append_right _ (by simp))
          · rw [photo_entry one.photo.1]
            exact List.mem_append_left _ (List.mem_append_left _ (List.mem_append_right _ (by simp)))
        · exact inside other member

theorem mem_participantsOf {m : UUID} {db : Db} {entry : MatchParticipant × Photo}
    (member : entry ∈ PostcardRepository.participantsOf m db) : entry.1.matchId = m ∧
      db.participants.get? (m,entry.1.userId) = some entry.1 ∧
      db.photos.get? entry.1.photoId = some entry.2 := by
  simp only [PostcardRepository.participantsOf,List.mem_insertionSort,List.mem_filterMap,
    List.mem_filter,Option.map_eq_some_iff,decide_eq_true_eq] at member
  obtain ⟨row,⟨present,same⟩,photo,owner,rfl⟩ := member
  subst same
  exact ⟨rfl,Table.get?_of_mem present,owner⟩

theorem nodup_participantsOf (m : UUID) (db : Db) :
    (PostcardRepository.participantsOf m db).Nodup := by
  have distinct : (db.participants.rows.filter fun row => row.matchId = m).Nodup :=
    (List.Nodup.of_map _ db.participants.distinct).filter _
  refine (List.perm_insertionSort _ _).nodup_iff.mpr (distinct.filterMap ?_)
  intro row row' entry one two
  obtain ⟨_,_,rfl⟩ := Option.map_eq_some_iff.mp one
  obtain ⟨_,_,same⟩ := Option.map_eq_some_iff.mp two
  exact (congrArg Prod.fst same).symm

instance : Std.Total PostcardRepository.registeredBefore where
  total a b := by
    unfold PostcardRepository.registeredBefore
    rcases lt_trichotomy a.2.registeredAt b.2.registeredAt with before | same | after
    · exact .inl (.inl before)
    · exact (le_total a.2.id b.2.id).imp (fun le => .inr ⟨same,le⟩) fun le => .inr ⟨same.symm,le⟩
    · exact .inr (.inl after)

instance : IsTrans _ PostcardRepository.registeredBefore where
  trans a b c := by
    rintro (before | ⟨same,le⟩) (before' | ⟨same',le'⟩)
    · exact .inl (before.trans before')
    · exact .inl (same' ▸ before)
    · exact .inl (same ▸ before')
    · exact .inr ⟨same.trans same',le.trans le'⟩

private theorem pair_of_locked {m : UUID} {db db' : Db} {found : List (MatchParticipant × Photo)}
    {first second : MatchParticipant × Photo}
    (fewer : found.Sublist (PostcardRepository.participantsOf m db))
    (same : List.Forall₂ SameEntry found [first,second])
    (rows : db'.participants.get? (m,first.1.userId) = some first.1 ∧
      db'.participants.get? (m,second.1.userId) = some second.1)
    (photos : db'.photos.get? first.1.photoId = some first.2 ∧
      db'.photos.get? second.1.photoId = some second.2) : Pair db' m first second := by
  obtain ⟨one,rest,like,likes,rfl⟩ := List.forall₂_cons_right_iff.mp same
  obtain ⟨two,_,like',nothing,rfl⟩ := List.forall₂_cons_right_iff.mp likes
  cases List.forall₂_nil_right_iff.mp nothing
  obtain ⟨_,row₁,photo₁⟩ := mem_participantsOf (fewer.subset (a := one) (by simp))
  obtain ⟨_,row₂,photo₂⟩ := mem_participantsOf (fewer.subset (a := two) (by simp))
  have distinct : one ≠ two := by
    have nodup := (nodup_participantsOf m db).sublist fewer
    simpa using nodup
  have sorted : PostcardRepository.registeredBefore one two := by
    have all := (List.pairwise_insertionSort PostcardRepository.registeredBefore _).sublist fewer
    simpa using all
  refine ⟨rows.1,rows.2,photos.1,photos.2,?_,?_⟩
  · intro equal
    rw [like.key.2,like'.key.2] at equal
    have rowsEqual : one.1 = two.1 := Option.some.inj (row₁.symm.trans (equal ▸ row₂))
    exact distinct (Prod.ext rowsEqual (Option.some.inj (photo₁.symm.trans (rowsEqual ▸ photo₂))))
  · have ids : first.2.id = one.2.id ∧ second.2.id = two.2.id :=
      ⟨like.photo.2.trans (Table.key_of_get? photo₁).symm,
        like'.photo.2.trans (Table.key_of_get? photo₂).symm⟩
    simpa only [PostcardRepository.registeredBefore,like.registered,like'.registered,ids] using sorted

/-- While the first participant of a match is held nobody else sends in it. -/
private theorem envelopes_later {m : UUID} {H : Held Db RowKey} {w' : BackendWorld}
    {first second : MatchParticipant × Photo} (later : Later (protocol settings) D t H w w')
    (holds : Holds H w.db) (pair : ∀ db, Holds H db → Pair db m first second)
    (locked : .participant m first.1.userId ∈ keys H) :
    envelopes w'.db m = envelopes w.db m := by
  have both : Holds H w'.db ∧ envelopes w'.db m = envelopes w.db m := by
    refine later.preserves (F := fun a => Holds H a.db ∧ envelopes a.db m = envelopes w.db m)
      ⟨holds,rfl⟩ ?_
    rintro a b foreign ⟨before,same⟩
    refine ⟨foreign_holds foreign before,Eq.trans ?_ same⟩
    obtain ⟨u,r,other,_,apart,inv,⟨db,events,change,rfl⟩,_⟩ := foreign
    rcases change.steady.cards with same | ⟨draft,one,two,receiverId,start,ids,sending,_,sent⟩
    · simp only [envelopes,World.db_record,same]
    · have elsewhere : draft.matchId ≠ m := by
        intro equal
        subst equal
        have users := Pair.unique inv (pair a.db before) sending.pair
        exact apart sending.locked (users.1 ▸ locked)
      simp [envelopes,sent,PostcardRepository.newPostcard,elsewhere]
  exact both.2

section programs
open PostcardRepository

private theorem parties_eq_some {userId firstId receiverId : UUID}
    {rows : List (MatchParticipant × Photo)} (found : parties userId rows = some (firstId,receiverId)) :
    ∃ first second, rows = [first,second] ∧ firstId = first.1.userId ∧
      ((userId = first.1.userId ∧ receiverId = second.1.userId) ∨
        (userId = second.1.userId ∧ receiverId = first.1.userId)) := by
  unfold parties at found
  split at found
  next first photo second photo' =>
    refine ⟨(first,photo),(second,photo'),rfl,?_⟩
    split at found
    next same =>
      simp only [Option.some.injEq,Prod.mk.injEq] at found
      exact ⟨found.1.symm,.inl ⟨same,found.2.symm⟩⟩
    next =>
      split at found
      next same =>
        simp only [Option.some.injEq,Prod.mk.injEq] at found
        exact ⟨found.1.symm,.inr ⟨same,found.2.symm⟩⟩
      next => cases found
  next => cases found

variable {Q : Except Exc PostcardRow → Held Db RowKey → BackendWorld → Prop}

theorem wp_get {userId postcardId : UUID} {H : Held Db RowKey} (always : ∀ x H w, Q x H w) :
    wp (protocol settings) D r t (PostcardRepository.get userId postcardId) Q H w := by
  unfold PostcardRepository.get
  apply wp_query
  intro w₁ _
  split <;> exact always _ _ _

theorem wp_list {userId : UUID} {mailbox : Mailbox} {size : Nat} {cursor : Option Cursor}
    {Q : Except Exc (List PostcardRow) → Held Db RowKey → BackendWorld → Prop}
    {H : Held Db RowKey} (always : ∀ x H w, Q x H w) :
    wp (protocol settings) D r t (PostcardRepository.list userId mailbox size cursor) Q H w := by
  unfold PostcardRepository.list
  apply wp_query
  intro w₁ _
  exact always _ _ _

theorem wp_deliver {draft : Draft} {start : Time} (asked : r = .send draft)
    (always : ∀ x H w, Q x H w) :
    wp (protocol settings) D r t (deliver draft start) Q [] w := by
  unfold deliver
  apply wp_query
  intro w₁ later₁
  apply wp_bind
  apply wp_lockParticipants later₁.inv (holds_nil _)
  · intro entry member
    obtain ⟨same,row,photo⟩ := mem_participantsOf member
    exact ⟨⟨entry.1,same ▸ row,rfl⟩,entry.2,photo,rfl⟩
  · intro rows K w₂ _ holds₂ inside same
    rw [List.append_nil] at holds₂ inside ⊢
    dsimp only
    split
    · exact always _ _ _
    next firstId receiverId found =>
      obtain ⟨first,second,rfl,rfl,users⟩ := parties_eq_some found
      obtain ⟨found,fewer,entries⟩ := same
      have held₁ : HeldEntry K first := inside first (by simp)
      have held₂ : HeldEntry K second := inside second (by simp)
      have match₁ : first.1.matchId = draft.matchId ∧ second.1.matchId = draft.matchId := by
        obtain ⟨one,_,like,likes,rfl⟩ := List.forall₂_cons_right_iff.mp entries
        obtain ⟨two,_,like',_,rfl⟩ := List.forall₂_cons_right_iff.mp likes
        exact ⟨like.key.1.trans (mem_participantsOf (fewer.subset (a := one) (by simp))).1,
          like'.key.1.trans (mem_participantsOf (fewer.subset (a := two) (by simp))).1⟩
      have pair : ∀ db, Holds K db → Pair db draft.matchId first second := by
        intro db holds
        refine pair_of_locked fewer entries ⟨?_,?_⟩ ⟨holds _ held₁.2,holds _ held₂.2⟩
        · exact match₁.1 ▸ holds _ held₁.1
        · exact match₁.2 ▸ holds _ held₂.1
      have locked : .participant draft.matchId first.1.userId ∈ keys K :=
        match₁.1 ▸ List.mem_map_of_mem held₁.1
      apply wp_query
      intro w₃ _
      split
      · exact always _ _ _
      · apply wp_query
        intro w₄ later₄
        split
        · exact always _ _ _
        next turn =>
          split
          · exact always _ _ _
          next reply =>
            apply wp_commit
            · exact fun _ _ _ _ _ => always _ _ _
            · intro ids w₅ db events later₅ _ written _
              have stays := envelopes_later later₅ later₄.holds pair locked
              have last : lastSender draft.matchId w₅.db = lastSender draft.matchId w₄.db := by
                rw [lastSender_eq,lastSender_eq,stays]
              refine ⟨Change.step (.sent asked (pair w₅.db later₅.holds) locked users ?_ ?_ written),
                wp_get always⟩
              · intro nothing
                rw [last] at nothing
                exact not_not.mp fun other => turn ⟨nothing,other⟩
              · rw [last]
                exact reply

theorem wp_send {draft : Draft} (asked : r = .send draft) (always : ∀ x H w, Q x H w) :
    wp (protocol settings) D r t (send draft) Q [] w := by
  unfold send
  apply wp_supply
  intro start w₁ _ _
  split
  · exact wp_deliver asked always
  · apply wp_query
    intro w₂ _
    split
    · exact wp_get always
    · exact wp_deliver asked always

private theorem postcard_stays {c : UUID} {H : Held Db RowKey} {w' : BackendWorld}
    (later : Later (protocol settings) D t H w w') (there : (w.db.postcards.get? c).isSome) :
    (w'.db.postcards.get? c).isSome := by
  refine later_preserves (F := fun w => (w.db.postcards.get? c).isSome) later there ?_
  intro r u held a db events _ _ _ change present
  obtain ⟨card,found⟩ := Option.isSome_iff_exists.mp present
  obtain ⟨card',after,_⟩ := change.steady.postcard c card found
  exact Option.isSome_iff_exists.mpr ⟨card',after⟩

/-- The UPDATE of a postcard read before takes its row. -/
private theorem wp_lockPostcard {c : UUID} {α : Type} {k : Option Postcard → App α}
    {Q : Except Exc α → Held Db RowKey → BackendWorld → Prop}
    (there : (w.db.postcards.get? c).isSome)
    (rest : ∀ card w', wp (protocol settings) D r t (k (some card)) Q
      [(⟨.postcard c,card⟩ : (key : RowKey) × Lockable.Row Db key)] w') :
    wp (protocol settings) D r t (lockPostcard c >>= k) Q [] w := by
  apply wp_select
  · intro w₁ later missing
    have stays := postcard_stays later there
    rw [show w₁.db.postcards.get? c = none from missing] at stays
    cases stays
  · exact fun w₁ card _ _ => rest card w₁

theorem wp_markRead {userId postcardId : UUID} (asked : r = .readPostcard userId postcardId)
    (always : ∀ x H w, Q x H w) :
    wp (protocol settings) D r t (markRead userId postcardId) Q [] w := by
  unfold markRead
  apply wp_query
  intro w₁ _
  split
  · exact always _ _ _
  next card kept =>
    have there : (w₁.db.postcards.get? postcardId).isSome := by
      rw [(Option.filter_eq_some_iff.mp kept).1]
      rfl
    split
    · apply wp_supply
      intro clock w₂ later₂ _
      apply wp_lockPostcard (postcard_stays later₂ there)
      intro card w₃
      apply wp_commit
      · intro i w₄ _ _ failed
        cases failed
      · intro i w₄ db events _ _ written _
        cases written
        exact ⟨Change.step (.postcardRead asked (by simp)),wp_get always⟩
    · exact wp_get always

theorem wp_deletePostcard {userId postcardId : UUID}
    {Q : Except Exc Unit → Held Db RowKey → BackendWorld → Prop}
    (asked : r = .deletePostcard userId postcardId) (always : ∀ x H w, Q x H w) :
    wp (protocol settings) D r t (PostcardRepository.delete userId postcardId) Q [] w := by
  unfold PostcardRepository.delete
  apply wp_query
  intro w₁ _
  split
  · exact always _ _ _
  next side visible =>
    have there : (w₁.db.postcards.get? postcardId).isSome := by
      obtain ⟨card,found,_⟩ := Option.bind_eq_some_iff.mp visible
      rw [found]
      rfl
    apply wp_supply
    intro clock w₂ later₂ _
    apply wp_lockPostcard (postcard_stays later₂ there)
    intro card w₃
    apply wp_commit
    · intro i w₄ _ _ failed
      cases failed
    · intro i w₄ db events _ _ written _
      cases written
      exact ⟨Change.step (.postcardDeleted asked (by simp)),always _ _ _⟩

end programs

end Dalm
