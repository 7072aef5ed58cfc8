import Dalm.ShownPermissions
import Dalm.Relational.Answers

/-! Who gets to see a photo. A URL is issued in the step that reads the row which grants it, to
the owner or to the one other participant of the photo's match. -/
namespace Dalm
open Relational HomeRepository

/-- The other participant of the match of photo `p` is user `u`. -/
def MatchedWith (db : Db) (p u : UUID) : Prop :=
  ∃ m mine partner, Seated db m mine partner ∧ mine.1.photoId = p ∧ partner.1.userId = u ∧
    partner.2.userId = u

/-- Session `t` was issued a URL for photo `p` on behalf of user `u`. -/
def Issued (s : Backend) (t : Nat) (u p : UUID) : Prop :=
  ∃ key, Replies s t (.photoImage u p) (.imageUrl key)

/-- What the two queries of `can_access_photo` look for. -/
def Grants (u p : UUID) (db : Db) : Prop :=
  (∃ photo, db.photos.get? p = some photo ∧ photo.userId = u ∧ photo.deletedAt = none) ∨
    ∃ m, m ∈ sharedMatches u p db

section answers
variable {u p : UUID} {db : Db}

theorem mem_sharedMatches {m : UUID} : m ∈ sharedMatches u p db ↔
    ∃ target ∈ db.participants.rows, target.photoId = p ∧ target.matchId = m ∧
      (db.participants.get? (m,u)).isSome := by
  unfold sharedMatches
  rw [List.mem_flatMap]
  constructor
  · rintro ⟨target,chosen,member⟩
    obtain ⟨inside,photo⟩ := List.mem_filter.mp chosen
    obtain ⟨viewer,joined,rfl⟩ := List.mem_map.mp member
    obtain ⟨present,same⟩ := List.mem_filter.mp joined
    obtain ⟨match_,user⟩ := of_decide_eq_true same
    refine ⟨target,inside,of_decide_eq_true photo,rfl,?_⟩
    rw [← match_,← user,Table.get?_of_mem present]
    rfl
  · rintro ⟨target,inside,photo,rfl,there⟩
    obtain ⟨viewer,found⟩ := Option.isSome_iff_exists.mp there
    obtain ⟨present,key⟩ := Table.mem_rows_of_get? found
    obtain ⟨match_,user⟩ := Prod.ext_iff.mp key
    refine ⟨target,List.mem_filter.mpr ⟨inside,decide_eq_true photo⟩,List.mem_map.mpr ⟨viewer,?_,rfl⟩⟩
    exact List.mem_filter.mpr ⟨present,decide_eq_true ⟨match_,user⟩⟩

theorem canAccessPhoto_answers :
    (canAccessPhoto u p).Answers fun db allowed => allowed = true → Grants u p db := by
  apply Txn.answers_query
  intro db
  split
  next owned =>
    obtain ⟨photo,found⟩ := Option.isSome_iff_exists.mp owned
    obtain ⟨present,chosen⟩ := Option.filter_eq_some_iff.mp found
    obtain ⟨owner,alive⟩ := of_decide_eq_true chosen
    exact .inl ⟨true,rfl,fun _ => .inl ⟨photo,present,owner,alive⟩⟩
  next =>
    refine .inr fun db => .inl ⟨_,rfl,fun shared => ?_⟩
    obtain ⟨m,found⟩ := Option.isSome_iff_exists.mp shared
    exact .inr ⟨m,List.mem_of_mem_head? found⟩

theorem getPhotoImage_answers : (getPhotoImage u p).Answers fun db _ => Grants u p db := by
  apply Txn.answers_query
  intro db
  split
  · exact .inr trivial
  · split
    · exact .inr trivial
    next key stored =>
      refine .inr (canAccessPhoto_answers.andThen fun db allowed granted => ?_)
      split
      next yes => exact .inl ⟨key,rfl,granted yes⟩
      next => exact .inr trivial

theorem photoImage_answers {K : Type} [Field K] [LinearOrder K] [IsStrictOrderedRing K] [FloorRing K]
    (settings : Settings) (sqrt : ℚ → K) : (program settings sqrt (.photoImage u p)).Answers
      fun db value => ∃ key, value = .imageUrl key ∧ Grants u p db :=
  Txn.answers_return getPhotoImage_answers

end answers

section states
variable {settings : Settings} {w : BackendWorld} {u u' p m owner : UUID} {row : MatchParticipant}

theorem Inv.matchedWith (inv : Inv settings w) (found : w.db.participants.get? (m,owner) = some row)
    (joined : row.photoId = p) (there : (w.db.participants.get? (m,u)).isSome) (apart : owner ≠ u) :
    MatchedWith w.db p u := by
  have participates : (w.db.participants.get? (m,owner)).isSome := by
    rw [found]
    rfl
  obtain ⟨mine,partner,own,seated⟩ := seated_of_participant inv participates
  have same : mine.1 = row := Option.some.inj ((own ▸ seated.mineRow).symm.trans found)
  obtain ⟨other,present⟩ := Option.isSome_iff_exists.mp there
  have user : partner.1.userId = u := by
    rcases seated.only u other present with equal | equal
    · exact absurd (own.symm.trans equal.symm) apart
    · exact equal.symm
  obtain ⟨_,photo,stored,owns,_⟩ := inv.matches_.participant m _ _ seated.partnerRow
  cases Option.some.inj (seated.partnerPhoto.symm.trans stored)
  exact ⟨m,mine,partner,seated,same ▸ joined,user,owns.trans user⟩

theorem Inv.matchedWith_unique (inv : Inv settings w) (one : MatchedWith w.db p u)
    (two : MatchedWith w.db p u') : u = u' := by
  obtain ⟨m,mine,partner,seated,joined,rfl,_⟩ := one
  obtain ⟨m',mine',partner',seated',joined',rfl,_⟩ := two
  have same := inv.matches_.once _ _ _ _ seated.mineRow seated'.mineRow (joined.trans joined'.symm)
  obtain ⟨rfl,users⟩ := Prod.ext_iff.mp same
  rcases seated.only _ _ seated'.partnerRow with equal | equal
  · exact absurd (equal.trans users) seated'.apart
  · exact equal.symm

/-- Who is granted a URL owns the photo or is matched with it, and the photo is not deleted. -/
theorem Inv.granted (inv : Inv settings w) (grants : Grants u p w.db) : ∃ photo,
    w.db.photos.get? p = some photo ∧ photo.status ≠ .deleted ∧
      (u = photo.userId ∨ MatchedWith w.db p u) := by
  rcases grants with ⟨photo,found,owner,alive⟩ | ⟨m,shared⟩
  · exact ⟨photo,found,(inv.photos p photo found).deleted.mp alive,.inl owner.symm⟩
  · obtain ⟨target,member,joined,rfl,there⟩ := mem_sharedMatches.mp shared
    have present := Table.get?_of_mem member
    obtain ⟨_,photo,stored,owns,matched⟩ := inv.matches_.participant _ _ target present
    rw [joined] at stored
    refine ⟨photo,stored,by simp [matched],?_⟩
    by_cases own : target.userId = u
    · exact .inl (own.symm.trans owns.symm)
    · exact .inr (inv.matchedWith present joined there own)

theorem Change.matchedWith {r : Request} {t : Nat} {held : List RowKey} {db : Db} {events : List Event}
    (change : Change settings r t held w db events)
    (inv' : Inv settings ((World.mk db w.log).record t events)) (before : MatchedWith w.db p u) :
    MatchedWith db p u := by
  obtain ⟨m,mine,partner,seated,joined,rfl,_⟩ := before
  obtain ⟨row,found,_,same⟩ := change.steady.participant _ _ seated.mineRow
  obtain ⟨other,found',_,_⟩ := change.steady.participant _ _ seated.partnerRow
  exact inv'.matchedWith found (same.trans joined) (Option.isSome_iff_exists.mpr ⟨other,found'⟩)
    seated.apart.symm

end states

section runs
variable {K : Type} [Field K] [LinearOrder K] [IsStrictOrderedRing K] [FloorRing K]
  {settings : Settings} {sqrt : ℚ → K} {users : Table User.id} {s s' : Backend} {t : Nat} {u p : UUID}
  {photo : Photo}

/-- Who sees photo `p`: its owner and at most one other user, whose match with it exists, and
nobody once it is deleted. -/
structure Viewers (run : Request → App Response) (start s : Backend) (p : UUID) (photo : Photo) :
    Prop where
  seen : ∀ s₁ t u, Reach run Discipline.none start s₁ → Reach run Discipline.none s₁ s →
    Issued s₁ t u p → u = photo.userId ∨ MatchedWith s.db p u
  partner : ∀ u u', MatchedWith s.db p u → MatchedWith s.db p u' → u = u'
  granted : ∀ action s' t u, s.step run action = some s' → Issued s' t u p → ¬ Issued s t u p →
    photo.status ≠ .deleted ∧ (u = photo.userId ∨ MatchedWith s.db p u)
  gone : photo.status = .deleted → ∀ s' t u, Reach run Discipline.none s s' → Issued s' t u p →
    Issued s t u p

theorem Reachable.issued (reachable : Reachable settings sqrt users s) {action : Action Input Exc Request}
    (taken : s.step (program settings sqrt) action = some s') (issued : Issued s' t u p)
    (before : ¬ Issued s t u p) : ∃ photo, s.world.db.photos.get? p = some photo ∧
      photo.status ≠ .deleted ∧ (u = photo.userId ∨ MatchedWith s.world.db p u) := by
  obtain ⟨key,replied⟩ := issued
  obtain ⟨_,_,grants⟩ := Reach.replied_at reachable (fun _ => rfl) (photoImage_answers settings sqrt)
    taken replied fun earlier => before ⟨key,earlier⟩
  exact reachable.inv.granted grants

/-- User `u` owns photo `p` or is matched with it. -/
def Concerns (u p : UUID) (db : Db) : Prop :=
  ∃ photo, db.photos.get? p = some photo ∧ (u = photo.userId ∨ MatchedWith db p u)

theorem Reachable.concerns (reachable : Reachable settings sqrt users s)
    (run : Reach (program settings sqrt) Discipline.none s s') (before : Concerns u p s.world.db) :
    Concerns u p s'.world.db := by
  refine reachable.preserves (F := fun w => Concerns u p w.db) run before ?_
  intro r t held a db events inv change _ concerns
  obtain ⟨photo,found,either⟩ := concerns
  obtain ⟨photo',found',_,follows⟩ := change.photo found
  refine ⟨photo',found',either.imp (fun own => own.trans follows.owner.symm) fun matched => ?_⟩
  exact change.matchedWith (change.keep inv) matched

theorem Reachable.seen (reachable : Reachable settings sqrt users s) (issued : Issued s t u p) :
    Concerns u p s.world.db := by
  have admitted : ∀ {value}, Read (program settings sqrt) Discipline.none (launch users) s
      (fun db value => ∃ key, value = .imageUrl key ∧ Grants u p db) value → Concerns u p s.world.db := by
    rintro _ ⟨here,before,after,_,_,grants⟩
    have there : Reachable settings sqrt users here := before
    obtain ⟨photo,found,_,either⟩ := there.inv.granted grants
    exact there.concerns after ⟨photo,found,either⟩
  obtain ⟨key,waiting | ended⟩ := issued
  · rcases reachable.answering (fun _ => rfl) (photoImage_answers settings sqrt) waiting with
      open_ | ⟨_,_,read⟩
    · exact open_.elim
    · exact admitted read
  · exact admitted (reachable.answering (fun _ => rfl) (photoImage_answers settings sqrt) ended)

theorem Reachable.gone (reachable : Reachable settings sqrt users s)
    (deleted : hasStatus s.world.db p .deleted) (run : Reach (program settings sqrt) Discipline.none s s')
    (issued : Issued s' t u p) : Issued s t u p := by
  induction run with
  | refl => exact issued
  | @step a b action before taken admitted ih =>
    have there := reachable.trans before
    by_cases earlier : Issued a t u p
    · exact ih earlier
    · obtain ⟨photo,found,alive,_⟩ := there.issued taken issued earlier
      have still : hasStatus a.world.db p .deleted :=
        reachable.preserves (F := fun w => hasStatus w.db p .deleted) before deleted
          fun _ _ _ _ _ _ _ change _ holds => change.final holds (.inr rfl)
      obtain ⟨other,found',status⟩ := still
      cases Option.some.inj (found.symm.trans found')
      exact absurd status alive

theorem photoViewers (reachable : Reachable settings sqrt users s)
    (found : s.world.db.photos.get? p = some photo) :
    Viewers (program settings sqrt) (launch users) s p photo where
  seen s₁ t u before after issued := by
    have there : Reachable settings sqrt users s₁ := before
    obtain ⟨other,found',either⟩ := there.concerns after (there.seen issued)
    cases Option.some.inj (found.symm.trans found')
    exact either
  partner u u' one two := reachable.inv.matchedWith_unique one two
  granted action s' t u taken issued before := by
    obtain ⟨other,found',alive,either⟩ := reachable.issued taken issued before
    cases Option.some.inj (found.symm.trans found')
    exact ⟨alive,either⟩
  gone deleted s' t u run issued := reachable.gone ⟨photo,found,deleted⟩ run issued

end runs

namespace Sample

/-- A match, and a look of the second user at the photo of the first. -/
def looked : List (Action Input Exc Request) := matched ++ session 4 (.photoImage 2 11) 4 (input 6 400)

def sees (s : Backend) (t : Nat) (u p : UUID) : Bool :=
  match s.session t with
  | some ⟨.photoImage u' p',.inr (.ok (.imageUrl _))⟩ => u' = u ∧ p' = p
  | _ => false

theorem issued_of_sees {s : Backend} {t : Nat} {u p : UUID} (sees_ : sees s t u p = true) :
    Issued s t u p := by
  unfold sees at sees_
  split at sees_
  next u' p' key ended =>
    obtain ⟨rfl,rfl⟩ := of_decide_eq_true sees_
    exact ⟨key,.inr ended⟩
  next => cases sees_

end Sample

theorem photoViewers_looked : ∃ s photo, Issued s 4 2 11 ∧
    Viewers (program Sample.settings Rat.sqrt) (launch Sample.users) s 11 photo := by
  obtain ⟨s,_,reachable,test⟩ := Sample.reached Sample.looked
    (fun s => Sample.sees s 4 2 11 && (s.world.db.photos.get? 11).isSome) (by decide)
  obtain ⟨sees,there⟩ := (Bool.and_eq_true _ _).mp test
  obtain ⟨photo,found⟩ := Option.isSome_iff_exists.mp there
  exact ⟨s,photo,Sample.issued_of_sees sees,photoViewers reachable found⟩

end Dalm
