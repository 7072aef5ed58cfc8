import Dalm.ShownPermissions

/-! The two sides of a match. Each participant is shown the match with his photo on his own side, and
where no block stands the turn to write is with exactly one of them. -/
namespace Dalm
open Relational Txn PostcardRepository HomeRepository

/-- Two details tell of one match from its two sides. -/
structure Mirrored (mine partner : MatchDetailRow) : Prop where
  common : mine.matchId = partner.matchId ∧ mine.explanation = partner.explanation ∧
    mine.matchedAt = partner.matchedAt
  photo : mine.myPhotoId = partner.partnerPhotoId ∧ mine.myImageUrl = partner.partnerImageUrl ∧
    mine.myRegisteredAt = partner.partnerRegisteredAt ∧ mine.myDeleted = partner.partnerDeleted
  partnerPhoto : mine.partnerPhotoId = partner.myPhotoId ∧ mine.partnerImageUrl = partner.myImageUrl ∧
    mine.partnerRegisteredAt = partner.myRegisteredAt ∧ mine.partnerDeleted = partner.myDeleted
  blocked : mine.postcardPermission = .blocked ↔ partner.postcardPermission = .blocked
  turn : mine.postcardPermission ≠ .blocked →
    (mine.postcardPermission = .canSend ↔ partner.postcardPermission ≠ .canSend)

/-- Whoever asks for the detail of this match, this is what he is shown. -/
def ShownDetail (w : BackendWorld) (m userId : UUID) (shown : Option MatchDetailRow) : Prop :=
  ∀ t inputs n, ∃ k, alone t inputs (getMatchDetail userId m) n w = ⟨.ok shown,k,w⟩

section sides
variable {settings : Settings} {w : BackendWorld} {m : UUID} {mine partner : MatchParticipant × Photo}

/-- What one participant of a match is shown. -/
def detailOf (db : Db) (match_ : Match) (mine partner : MatchParticipant × Photo) (user : User) :
    MatchDetailRow where
  matchId := match_.id
  myPhotoId := mine.2.id
  myImageUrl := mine.2.imageUrl
  myRegisteredAt := mine.2.registeredAt
  myDeleted := mine.2.deletedAt.isSome
  partnerPhotoId := partner.2.id
  partnerImageUrl := partner.2.imageUrl
  partnerRegisteredAt := partner.2.registeredAt
  partnerDeleted := partner.2.deletedAt.isSome
  partnerId := user.id
  partnerNickname := shownNickname user.nickname
  explanation := match_.explanation
  matchedAt := match_.matchedAt
  hidden := mine.1.hiddenAt.isSome
  postcardPermission := permissionOf db match_.id mine partner

theorem Seated.symm {db : Db} (seated : Seated db m mine partner) : Seated db m partner mine where
  mineRow := seated.partnerRow
  partnerRow := seated.mineRow
  minePhoto := seated.partnerPhoto
  partnerPhoto := seated.minePhoto
  apart := seated.apart.symm
  photosApart := seated.photosApart.symm
  only u row found := (seated.only u row found).symm

theorem Seated.shownDetail {match_ : Match} {user : User} (seated : Seated w.db m mine partner)
    (found : w.db.matches_.get? m = some match_)
    (there : w.db.users.get? partner.1.userId = some user) :
    ShownDetail w m mine.1.userId (some (detailOf w.db match_ mine partner user)) := by
  have key : match_.id = m := Table.key_of_get? found
  have rows : matchDetails mine.1.userId m w.db = [detailOf w.db match_ mine partner user] := by
    simp only [matchDetails,found,Option.toList_some,List.bind_eq_flatMap,key,seated.mineRow,
      seated.partners_eq,seated.minePhoto,seated.partnerPhoto,there,List.flatMap_singleton,List.pure_def]
    subst key
    rfl
  intro t inputs n
  refine ⟨n + 1,?_⟩
  rw [getMatchDetail,alone_query,rows]
  rfl

/-- Who takes no part in a match is not shown it. -/
theorem shownDetail_none {userId : UUID} (absent : w.db.participants.get? (m,userId) = none) :
    ShownDetail w m userId none := by
  have rows : matchDetails userId m w.db = [] := by
    cases found : w.db.matches_.get? m with
    | none => simp [matchDetails,found]
    | some match_ =>
      have key : match_.id = m := Table.key_of_get? found
      simp [matchDetails,found,key,absent]
  intro t inputs n
  refine ⟨n + 1,?_⟩
  rw [getMatchDetail,alone_query,rows]
  rfl

theorem Seated.registeredFirst_flip {db : Db} (seated : Seated db m mine partner) :
    registeredFirst partner.2 mine.2 = !registeredFirst mine.2 partner.2 := by
  have different : mine.2.id ≠ partner.2.id := by
    rw [seated.ids.1,seated.ids.2]
    exact seated.photosApart
  unfold registeredFirst
  by_cases same : mine.2.registeredAt = partner.2.registeredAt
  · rw [if_pos same,if_pos same.symm]
    rcases lt_or_gt_of_ne different with before | after
    · simp [before.le,not_le.mpr before]
    · simp [after.le,not_le.mpr after]
  · rw [if_neg same,if_neg fun equal => same equal.symm]
    rcases lt_or_gt_of_ne same with before | after
    · simp [before,before.le]
    · simp [after,after.le]

/-- The last postcard of a match is of one of its participants. -/
theorem Seated.lastSender_cases {last : UUID} (seated : Seated w.db m mine partner) (inv : Inv settings w)
    (found : lastSender m w.db = some last) : last = mine.1.userId ∨ last = partner.1.userId := by
  obtain ⟨card,first,rfl⟩ := Option.map_eq_some_iff.mp found
  obtain ⟨inside,chosen⟩ := List.mem_filter.mp ((List.mem_insertionSort _).mp (List.mem_of_head? first))
  have sender := inv.postcards.sender card inside
  rw [of_decide_eq_true chosen] at sender
  obtain ⟨row,there⟩ := Option.isSome_iff_exists.mp sender
  exact seated.only _ row there

theorem resolve_blocked {blocked first : Bool} {last : Option UUID} {userId : UUID} :
    resolvePostcardPermission blocked first last userId = .blocked ↔ blocked = true := by
  unfold resolvePostcardPermission
  cases blocked with
  | true => simp
  | false =>
    cases last with
    | none => cases first <;> simp
    | some last => by_cases same : last = userId <;> simp [same]

/-- Where no block stands the first sender begins, and then whoever wrote last waits. -/
theorem resolve_canSend {first : Bool} {last : Option UUID} {userId : UUID} :
    resolvePostcardPermission false first last userId = .canSend ↔
      (last = none → first = true) ∧ last ≠ some userId := by
  unfold resolvePostcardPermission
  cases last with
  | none => cases first <;> simp
  | some last => by_cases same : last = userId <;> simp [same]

theorem permissionOf_blocked (db : Db) (m : UUID) (mine partner : MatchParticipant × Photo) :
    permissionOf db m mine partner = .blocked ↔ permissionOf db m partner mine = .blocked := by
  rw [permissionOf,permissionOf,resolve_blocked,resolve_blocked,Db.blockedBetween_eq,Db.blockedBetween_eq,
    Bool.or_comm]

theorem Seated.turn_iff (seated : Seated w.db m mine partner) (inv : Inv settings w)
    (free : permissionOf w.db m mine partner ≠ .blocked) :
    permissionOf w.db m mine partner = .canSend ↔ permissionOf w.db m partner mine ≠ .canSend := by
  have open_ : w.db.blockedBetween mine.1.userId partner.1.userId = false := by
    rw [permissionOf,ne_eq,resolve_blocked] at free
    simpa using free
  have open' : w.db.blockedBetween partner.1.userId mine.1.userId = false := by
    rw [Db.blockedBetween_eq,Bool.or_comm,← Db.blockedBetween_eq]
    exact open_
  simp only [permissionOf,open_,open',ne_eq,resolve_canSend,seated.registeredFirst_flip]
  cases last : lastSender m w.db with
  | none => cases registeredFirst mine.2 partner.2 <;> simp
  | some sender =>
    have apart := seated.apart
    rcases seated.lastSender_cases inv last with rfl | rfl
    · simp [apart.symm]
    · simp [apart]

theorem Seated.mirrored {match_ : Match} {user user' : User} (seated : Seated w.db m mine partner)
    (inv : Inv settings w) (found : w.db.matches_.get? m = some match_) :
    Mirrored (detailOf w.db match_ mine partner user) (detailOf w.db match_ partner mine user') := by
  have key : match_.id = m := Table.key_of_get? found
  subst key
  exact ⟨⟨rfl,rfl,rfl⟩,⟨rfl,rfl,rfl,rfl⟩,⟨rfl,rfl,rfl,rfl⟩,permissionOf_blocked _ _ _ _,seated.turn_iff inv⟩

end sides

/-- In every state a match is shown to its two participants, to each from his side, and to nobody else. -/
theorem matchSides {K : Type} [Field K] [LinearOrder K] [IsStrictOrderedRing K] [FloorRing K]
    {settings : Settings} {sqrt : ℚ → K} {users : Table User.id} {s : Backend} {m : UUID}
    (reachable : Reachable settings sqrt users s) (matched : (s.db.matches_.get? m).isSome) :
    ∃ first second, first.partnerId ≠ second.partnerId ∧ Mirrored first second ∧
      ShownDetail s.world m second.partnerId (some first) ∧
      ShownDetail s.world m first.partnerId (some second) ∧
      ∀ userId, userId ≠ first.partnerId → userId ≠ second.partnerId →
        ShownDetail s.world m userId none := by
  have inv := reachable.inv
  obtain ⟨match_,found⟩ := Option.isSome_iff_exists.mp matched
  obtain ⟨u,_,row,_,_,there,_⟩ := inv.matches_.pair m matched
  have participates : (s.world.db.participants.get? (m,u)).isSome := Option.isSome_iff_exists.mpr ⟨row,there⟩
  obtain ⟨mine,partner,rfl,seated⟩ := seated_of_participant inv participates
  have known := (inv.onboarded participates).known
  have known' := (inv.onboarded (Option.isSome_iff_exists.mpr ⟨_,seated.partnerRow⟩)).known
  obtain ⟨own,ownUser⟩ := Option.isSome_iff_exists.mp known
  obtain ⟨other,otherUser⟩ := Option.isSome_iff_exists.mp known'
  have ownId : own.id = mine.1.userId := Table.key_of_get? ownUser
  have otherId : other.id = partner.1.userId := Table.key_of_get? otherUser
  refine ⟨detailOf s.world.db match_ mine partner other,detailOf s.world.db match_ partner mine own,
    ?_,seated.mirrored inv found,?_,?_,?_⟩
  · change other.id ≠ own.id
    rw [ownId,otherId]
    exact seated.apart
  · change ShownDetail s.world m own.id _
    rw [ownId]
    exact seated.shownDetail found otherUser
  · change ShownDetail s.world m other.id _
    rw [otherId]
    exact seated.symm.shownDetail found ownUser
  · intro userId notOther notOwn
    refine shownDetail_none (Option.eq_none_iff_forall_ne_some.mpr fun entry present => ?_)
    rcases seated.only userId entry present with same | same
    · exact notOwn (same.trans ownId.symm)
    · exact notOther (same.trans otherId.symm)

theorem matchSides_matched : ∃ s : Backend, ∃ first second, first.partnerId ≠ second.partnerId ∧
    Mirrored first second ∧ ShownDetail s.world 300 second.partnerId (some first) := by
  obtain ⟨s,_,reachable,passed⟩ := Sample.reached Sample.matched
    (fun s => (s.db.matches_.get? 300).isSome) (by decide +kernel)
  obtain ⟨first,second,apart,mirrored,shown,_⟩ := matchSides reachable passed
  exact ⟨s,first,second,apart,mirrored,shown⟩

end Dalm
