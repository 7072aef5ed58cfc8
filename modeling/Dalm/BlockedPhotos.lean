import Dalm.PhotoViewers
import Dalm.Relational.Alone

/-! What a block hides. The check of a photo's access never asks for one: users with a block
between them still see each other's photos through a match they share. -/
namespace Dalm
open Relational Txn HomeRepository

section reading
variable {settings : Settings} {t n : Nat} {inputs : Nat → Input} {w : BackendWorld} {u p : UUID}
  {photo : Photo} {key : String}

theorem alone_canAccessPhoto (u p : UUID) (t : Nat) (inputs : Nat → Input) (n : Nat) (w : BackendWorld) :
    ∃ allowed m, alone t inputs (canAccessPhoto u p) n w = ⟨.ok allowed,m,w⟩ ∧
      (allowed = true ↔ Grants u p w.db) := by
  rw [canAccessPhoto,alone_query]
  cases owned : (w.db.photos.get? p).filter fun photo => photo.userId = u ∧ photo.deletedAt = none with
  | some photo =>
    obtain ⟨present,chosen⟩ := Option.filter_eq_some_iff.mp owned
    obtain ⟨owner,alive⟩ := of_decide_eq_true chosen
    exact ⟨true,_,rfl,iff_of_true rfl (.inl ⟨photo,present,owner,alive⟩)⟩
  | none =>
    rw [Option.isSome_none,if_neg Bool.false_ne_true,alone_query]
    refine ⟨_,_,rfl,?_⟩
    constructor
    · intro shared
      obtain ⟨m,found⟩ := Option.isSome_iff_exists.mp shared
      exact .inr ⟨m,List.mem_of_mem_head? found⟩
    · rintro (⟨photo,present,owner,alive⟩ | ⟨m,member⟩)
      · have kept := Option.filter_eq_none_iff.mp owned photo present
        exact absurd (decide_eq_true ⟨owner,alive⟩) kept
      · cases listed : sharedMatches u p w.db with
        | nil =>
          rw [listed] at member
          cases member
        | cons head rest => rfl

/-- Whoever is granted a photo that is not deleted is issued its URL, and nobody else. -/
theorem alone_getPhotoImage (u : UUID) (t : Nat) (inputs : Nat → Input) (n : Nat)
    (found : w.db.photos.get? p = some photo) (alive : photo.deletedAt = none)
    (stored : photo.storageKey = some key) :
    (Grants u p w.db → (alone t inputs (getPhotoImage u p) n w).result = .ok key) ∧
      (¬ Grants u p w.db → (alone t inputs (getPhotoImage u p) n w).result = .error photoAccessDenied) := by
  have kept : (w.db.photos.get? p).filter (fun photo => photo.deletedAt = none) = some photo :=
    Option.filter_eq_some_iff.mpr ⟨found,decide_eq_true alive⟩
  obtain ⟨allowed,m,ran,granted⟩ := alone_canAccessPhoto u p t inputs (n + 1) w
  rw [getPhotoImage,getPhoto,alone_query,kept]
  dsimp only
  rw [stored]
  dsimp only
  rw [alone_bind,ran]
  dsimp only [andThen]
  constructor
  · intro grants
    rw [if_pos (granted.mpr grants),alone_pure]
  · intro denied
    rw [if_neg fun yes => denied (granted.mp yes),alone_throw]

end reading

section states
variable {K : Type} [Field K] [LinearOrder K] [IsStrictOrderedRing K] [FloorRing K]
  {settings : Settings} {sqrt : ℚ → K} {users : Table User.id} {s : Backend} {w : BackendWorld} {a b : UUID}

/-- A block between the two, either way. -/
def BlockedBetween (db : Db) (a b : UUID) : Prop :=
  (db.blocks.get? (a,b)).isSome ∨ (db.blocks.get? (b,a)).isSome

/-- User `a` is issued no URL for a photo of `b`. -/
def Unseen (w : BackendWorld) (a b : UUID) : Prop :=
  ∀ p photo, w.db.photos.get? p = some photo → photo.userId = b → ∀ t inputs n key,
    (alone t inputs (getPhotoImage a p) n w).result ≠ .ok key

/-- Both take part in one match. -/
def ShareMatch (db : Db) (a b : UUID) : Prop :=
  ∃ m, (db.participants.get? (m,a)).isSome ∧ (db.participants.get? (m,b)).isSome

theorem ShareMatch.symm (share : ShareMatch w.db a b) : ShareMatch w.db b a :=
  share.imp fun _ both => both.symm

theorem Inv.shareMatch_of_grants (inv : Inv settings w) {p : UUID} {photo : Photo}
    (found : w.db.photos.get? p = some photo) (owner : photo.userId = b) (apart : a ≠ b)
    (grants : Grants a p w.db) : ShareMatch w.db a b := by
  rcases grants with ⟨other,found',own,_⟩ | ⟨m,shared⟩
  · cases Option.some.inj (found.symm.trans found')
    exact absurd (own.symm.trans owner) apart
  · obtain ⟨target,member,joined,rfl,there⟩ := mem_sharedMatches.mp shared
    have present := Table.get?_of_mem member
    obtain ⟨_,other,stored,owns,_⟩ := inv.matches_.participant _ _ target present
    rw [joined] at stored
    cases Option.some.inj (found.symm.trans stored)
    have same : target.userId = b := owns.symm.trans owner
    refine ⟨target.matchId,there,?_⟩
    rw [← same,present]
    rfl

theorem Inv.unseen_iff (inv : Inv settings w) (apart : a ≠ b) :
    Unseen w a b ↔ ¬ ShareMatch w.db a b := by
  constructor
  · rintro unseen ⟨m,mine,theirs⟩
    obtain ⟨row,found⟩ := Option.isSome_iff_exists.mp theirs
    obtain ⟨_,photo,stored,owner,matched⟩ := inv.matches_.participant m b row found
    have ok := inv.photos _ photo stored
    obtain ⟨key,there⟩ := Option.isSome_iff_exists.mp ok.stored
    have alive : photo.deletedAt = none := ok.deleted.mpr (by simp [matched])
    obtain ⟨member,same⟩ := Table.mem_rows_of_get? found
    have granted : Grants a row.photoId w.db :=
      .inr ⟨m,mem_sharedMatches.mpr ⟨row,member,rfl,(Prod.ext_iff.mp same).1,mine⟩⟩
    exact unseen _ photo stored owner 0 (fun _ => ⟨0,fun _ => 0,[]⟩) 0 key
      ((alone_getPhotoImage a _ _ _ stored alive there).1 granted)
  · intro apart_ p photo found owner t inputs n key shown
    have ok := inv.photos p photo found
    obtain ⟨stored,there⟩ := Option.isSome_iff_exists.mp ok.stored
    by_cases alive : photo.deletedAt = none
    · have denied : ¬ Grants a p w.db := fun grants =>
        apart_ (inv.shareMatch_of_grants found owner apart grants)
      rw [(alone_getPhotoImage a t inputs n found alive there).2 denied] at shown
      cases shown
    · have gone : (w.db.photos.get? p).filter (fun photo => photo.deletedAt = none) = none := by
        rw [found,Option.filter_some,if_neg (by simpa using alive)]
      rw [getPhotoImage,getPhoto,alone_query,gone] at shown
      cases shown

/-- A block hides the photos of each from the other exactly if the two share no match. -/
theorem blockHides (reachable : Reachable settings sqrt users s) (apart : a ≠ b) :
    (BlockedBetween s.world.db a b → Unseen s.world a b ∧ Unseen s.world b a) ↔
      (BlockedBetween s.world.db a b → ¬ ShareMatch s.world.db a b) := by
  have one : Unseen s.world a b ↔ ¬ ShareMatch s.world.db a b := reachable.inv.unseen_iff apart
  have two : Unseen s.world b a ↔ ¬ ShareMatch s.world.db b a := reachable.inv.unseen_iff apart.symm
  refine imp_congr_right fun _ => ⟨fun both => one.mp both.1,fun none_ => ?_⟩
  exact ⟨one.mpr none_,two.mpr fun share => none_ share.symm⟩

end states

namespace Sample

/-- A match, and a block of the one participant by the other. -/
def fellOut : List (Action Input Exc Request) := matched ++ session 4 (.block 1 2) 4 (input 6 400)

end Sample

theorem blockHides_fellOut : ∃ s, Sample.after Sample.fellOut = some s ∧
    ((BlockedBetween s.world.db 1 2 → Unseen s.world 1 2 ∧ Unseen s.world 2 1) ↔
      (BlockedBetween s.world.db 1 2 → ¬ ShareMatch s.world.db 1 2)) := by
  obtain ⟨s,ran,reachable,_⟩ := Sample.reached Sample.fellOut (fun _ => true) (by decide)
  exact ⟨s,ran,blockHides reachable (by decide)⟩

/-- User 1 has blocked user 2 and is issued a URL for the photo of user 2. -/
theorem blocked_photo_seen : ¬ ∀ (settings : Settings) (users : Table User.id) (s : Backend) (a b : UUID),
    Reachable settings Rat.sqrt users s → a ≠ b → BlockedBetween s.world.db a b →
      Unseen s.world a b ∧ Unseen s.world b a := by
  intro hidden
  obtain ⟨s,_,reachable,test⟩ := Sample.reached Sample.fellOut (fun s => decide
    ((s.world.db.blocks.get? (1,2)).isSome ∧ (s.world.db.photos.get? 12).any (fun photo => photo.userId = 2) ∧
      (alone 5 (fun _ => Sample.input 7 500) (getPhotoImage 1 12) 0 s.world).result = .ok "12")) (by decide)
  obtain ⟨blocked,owned,shown⟩ := of_decide_eq_true test
  obtain ⟨photo,found,owner⟩ := (Option.any_eq_true _ _).mp owned
  exact (hidden _ _ s 1 2 reachable (by decide) (.inl blocked)).1 12 photo found
    (of_decide_eq_true owner) 5 _ 0 "12" shown

end Dalm
