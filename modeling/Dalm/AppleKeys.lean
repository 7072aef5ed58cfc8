import Dalm.Apple
import Dalm.Relational.Soundness
import Dalm.Relational.Statements

/-! The key set of AppleClient among any number of logins at once: what stands in it, and which tokens it
lets through. -/
namespace Dalm
open Relational Held Txn AppleClient
variable {Key : Type}

abbrev AppleWorld (Key : Type) := World (AppleKeys Key) (AppleEvent Key)

abbrev AppleSystem (Key : Type) :=
  System (AppleKeys Key) Unit AppleInput (AppleEvent Key) AppleError String String

def AppleEvent.isRefresh : AppleEvent Key → Bool
  | .lookedUp _ => false
  | _ => true

def AppleEvent.served? : AppleEvent Key → Option (AppleKeys Key)
  | .served keys => some keys
  | _ => none

section logs
variable {log more : List (Nat × AppleEvent Key)} {t u : Nat} {event : AppleEvent Key}

/-- The requests for the key set and what they came to, in order. -/
def refreshes (log : List (Nat × AppleEvent Key)) : List (Nat × AppleEvent Key) :=
  log.filter fun entry => entry.2.isRefresh

/-- The key set that was served last. -/
def currentKeys (log : List (Nat × AppleEvent Key)) : AppleKeys Key :=
  (log.filterMap fun entry => entry.2.served?).getLast?.getD ⟨[]⟩

/-- What a session told of. -/
def toldBy (t : Nat) (log : List (Nat × AppleEvent Key)) : List (AppleEvent Key) :=
  (log.filter fun entry => entry.1 = t).map Prod.snd

theorem refreshes_append : refreshes (log ++ more) = refreshes log ++ refreshes more := List.filter_append ..

theorem toldBy_append : toldBy t (log ++ more) = toldBy t log ++ toldBy t more := by
  rw [toldBy,List.filter_append,List.map_append]
  rfl

theorem toldBy_others (others : ∀ entry ∈ more, entry.1 ≠ t) : toldBy t (log ++ more) = toldBy t log := by
  have nothing : more.filter (fun entry => entry.1 = t) = [] :=
    List.filter_eq_nil_iff.mpr fun entry member => by simpa using others entry member
  rw [toldBy_append,toldBy,toldBy,nothing,List.map_nil,List.append_nil]

theorem toldBy_own : toldBy t (log ++ [(t,event)]) = toldBy t log ++ [event] := by
  rw [toldBy_append]
  simp [toldBy]

theorem currentKeys_served {keys : AppleKeys Key} : currentKeys (log ++ [(t,.served keys)]) = keys := by
  simp [currentKeys,AppleEvent.served?]

theorem currentKeys_other (unserved : event.served? = none) : currentKeys (log ++ [(t,event)]) = currentKeys log := by
  simp [currentKeys,unserved]

/-- An entry of a list with one entry more is that one, at the end, or was there before. -/
theorem concat_split {α : Type} {front back xs : List α} {x y : α} (same : xs ++ [y] = front ++ x :: back) :
    (front = xs ∧ x = y ∧ back = []) ∨ ∃ rest, back = rest ++ [y] ∧ xs = front ++ x :: rest := by
  rcases List.eq_nil_or_concat' back with rfl | ⟨rest,last,rfl⟩
  · obtain ⟨one,two⟩ := List.append_inj' same rfl
    exact .inl ⟨one.symm,(List.cons.inj two).1.symm,rfl⟩
  · rw [← List.cons_append,← List.append_assoc] at same
    obtain ⟨one,two⟩ := List.append_inj' same rfl
    rw [(List.cons.inj two).1]
    exact .inr ⟨rest,rfl,one⟩

/-- A list that goes on to an entry it lacks stops before it. -/
theorem prefix_of_unseen {α : Type} {xs before after : List α} {x : α} (goesOn : xs <+: before ++ x :: after)
    (unseen : x ∉ xs) : xs <+: before := by
  by_cases short : xs.length ≤ before.length
  · exact List.prefix_of_prefix_length_le goesOn (List.prefix_append before _) short
  · have inside : before ++ [x] <+: xs := by
      refine List.prefix_of_prefix_length_le ⟨after,by simp⟩ goesOn ?_
      rw [List.length_append,List.length_singleton]
      omega
    exact absurd (inside.subset (List.mem_append_right _ (List.mem_singleton_self x))) unseen

end logs

/-- The session looked a key up, once so far, and it was not there. -/
def Missed (t : Nat) (log : List (Nat × AppleEvent Key)) : Prop :=
  ∃ keyId before after, toldBy t log = [.lookedUp keyId] ∧ log = before ++ (t,.lookedUp keyId) :: after ∧
    (currentKeys before).get keyId = none

/-- What a login does at once, of what it reads or answers for. -/
inductive AppleChange (config : AppleConfig Key) (t : Nat) (held : List Unit) (w : AppleWorld Key) :
    AppleKeys Key → List (AppleEvent Key) → Prop where
  | lookedUp (keyId : String) : AppleChange config t held w w.db [.lookedUp keyId]
  | requested (locked : () ∈ held) (missed : Missed t w.log) : AppleChange config t held w w.db [.requested]
  | served {fetched : Except Raised HttpResponse} {keys : AppleKeys Key} (locked : () ∈ held)
    (last : (refreshes w.log).getLast? = some (t,.requested)) (came : servedKeys config fetched = .ok keys) :
    AppleChange config t held w keys [.served keys]

/-- The keys are those served last. Each request follows a lookup that missed, the only thing its session did
before; each key set follows the request of the session that set it, with no other refresh between. -/
structure AppleInv (config : AppleConfig Key) (w : AppleWorld Key) : Prop where
  current : w.db = currentKeys w.log
  answers : ∀ t keys, (t,.served keys) ∈ w.log → ∃ fetched, servedKeys config fetched = .ok keys
  asked : ∀ front t back, w.log = front ++ (t,.requested) :: back → Missed t front
  apart : ∀ front t keys back, refreshes w.log = front ++ (t,.served keys) :: back →
    front.getLast? = some (t,.requested)

section steps
variable {config : AppleConfig Key} {t : Nat} {held : List Unit} {w : AppleWorld Key} {keys : AppleKeys Key}
  {events : List (AppleEvent Key)}

/-- What one more event has to come with. -/
theorem AppleInv.concat (inv : AppleInv config w) {event : AppleEvent Key}
    (current : keys = currentKeys (w.log ++ [(t,event)]))
    (answers : ∀ keys, event = .served keys → ∃ fetched, servedKeys config fetched = .ok keys)
    (asked : event = .requested → Missed t w.log)
    (apart : ∀ keys, event = .served keys → (refreshes w.log).getLast? = some (t,.requested)) :
    AppleInv config ((World.mk keys w.log).record t [event]) := by
  refine ⟨current,fun v keys member => ?_,fun front v back same => ?_,fun front v keys back same => ?_⟩
  · rcases List.mem_append.mp member with old | new
    · exact inv.answers v keys old
    · cases List.mem_singleton.mp new
      exact answers keys rfl
  · rcases concat_split same with ⟨rfl,other,_⟩ | ⟨rest,_,before⟩
    · cases other
      exact asked rfl
    · exact inv.asked front v rest before
  · rw [World.log_record,List.map_singleton,refreshes_append] at same
    cases refresh : event.isRefresh with
    | false => exact inv.apart front v keys back (by simpa [refreshes,refresh] using same)
    | true =>
      rw [show refreshes [(t,event)] = [(t,event)] by simp [refreshes,refresh]] at same
      rcases concat_split same with ⟨rfl,other,_⟩ | ⟨rest,_,before⟩
      · cases other
        exact apart keys rfl
      · exact inv.apart front v keys rest before

theorem AppleInv.step (inv : AppleInv config w) (change : AppleChange config t held w keys events) :
    AppleInv config ((World.mk keys w.log).record t events) := by
  cases change with
  | lookedUp keyId =>
    exact inv.concat (inv.current.trans (currentKeys_other rfl).symm) (fun _ other => nomatch other)
      (fun other => nomatch other) fun _ other => nomatch other
  | requested locked missed =>
    exact inv.concat (inv.current.trans (currentKeys_other rfl).symm) (fun _ other => nomatch other)
      (fun _ => missed) fun _ other => nomatch other
  | @served fetched _ locked last came =>
    refine inv.concat currentKeys_served.symm (fun keys same => ?_) (fun other => nomatch other) fun _ _ => last
    cases same
    exact ⟨fetched,came⟩

end steps

/-- What logins may do to the keys they share. -/
def appleProtocol (config : AppleConfig Key) : Protocol (AppleKeys Key) Unit (AppleEvent Key) String where
  step _ t held w w' := ∃ keys events, AppleChange config t held w keys events ∧
    w' = (World.mk keys w.log).record t events
  inv := AppleInv config
  records := fun ⟨keys,events,_,same⟩ => ⟨keys,events,same⟩
  keep := by
    rintro _ t held w _ ⟨keys,events,change,rfl⟩ inv
    exact inv.step change
  frame := by
    rintro _ t held w _ ⟨keys,events,change,rfl⟩ _ key outside _
    cases change with
    | lookedUp | requested => rfl
    | served locked => exact absurd locked outside

section programs
variable {config : AppleConfig Key} {D : Discipline (AppleKeys Key) AppleInput (AppleEvent Key)} {t : Nat}
  {token keyId appleId : String} {w w' : AppleWorld Key} {H : Held (AppleKeys Key) Unit} {α : Type}
  {Q : Except AppleError α → Held (AppleKeys Key) Unit → AppleWorld Key → Prop}

theorem AppleChange.taken {held : List Unit} {keys : AppleKeys Key} {events : List (AppleEvent Key)}
    (change : AppleChange config t held w keys events) :
    (appleProtocol config).step token t held w ((World.mk keys w.log).record t events) := ⟨keys,events,change,rfl⟩

theorem toldBy_later (later : Later (appleProtocol config) D t H w w') : toldBy t w'.log = toldBy t w.log := by
  obtain ⟨more,same,others⟩ := later.appends (S := fun _ => False)
  rw [same]
  exact toldBy_others fun entry member mine => others entry member mine

theorem Missed.later (missed : Missed t w.log) (later : Later (appleProtocol config) D t H w w') :
    Missed t w'.log := by
  obtain ⟨keyId,before,after,told,log,absent⟩ := missed
  obtain ⟨more,same,_⟩ := later.appends (S := fun _ => False)
  exact ⟨keyId,before,after ++ more,(toldBy_later later).trans told,by simp [same,log],absent⟩

/-- While a session holds the lock nobody else asks for the key set. -/
theorem refreshes_locked (later : Later (appleProtocol config) D t H w w') (locked : () ∈ keys H) :
    refreshes w'.log = refreshes w.log := by
  refine later.preserves (F := fun w' => refreshes w'.log = refreshes w.log) rfl ?_
  rintro a b ⟨u,_,other,_,apart,_,⟨keys,events,change,rfl⟩,_⟩ same
  rw [World.log_record,refreshes_append,same]
  cases change with
  | lookedUp keyId => simp [refreshes,AppleEvent.isRefresh]
  | requested taken => exact absurd locked (apart taken)
  | served taken => exact absurd locked (apart taken)

/-- The key stood for this id in the set that was current when the session looked it up last. -/
def KeyFound (t : Nat) (keyId : String) (key : Key) (w : AppleWorld Key) : Prop :=
  ∃ before after, w.log = before ++ (t,.lookedUp keyId) :: after ∧ (currentKeys before).get keyId = some key

theorem KeyFound.later {key : Key} (found : KeyFound t keyId key w)
    (later : Later (appleProtocol config) D t H w w') : KeyFound t keyId key w' := by
  obtain ⟨before,after,log,there⟩ := found
  obtain ⟨more,same,_⟩ := later.appends (S := fun _ => False)
  exact ⟨before,after ++ more,by simp [same,log],there⟩

theorem wp_lookUp {k : Option Key → Apple Key α}
    (found : ∀ key w₁ w', Later (appleProtocol config) D t H w w₁ → w' = w₁.record t [.lookedUp keyId] →
      KeyFound t keyId key w' → wp (appleProtocol config) D token t (k (some key)) Q H w')
    (missing : ∀ w₁ w', Later (appleProtocol config) D t H w w₁ → w' = w₁.record t [.lookedUp keyId] →
      (currentKeys w₁.log).get keyId = none → wp (appleProtocol config) D token t (k none) Q H w') :
    wp (appleProtocol config) D token t (lookUp keyId >>= k) Q H w := by
  apply wp_observe
  intro w₁ later _
  refine ⟨(AppleChange.lookedUp keyId).taken,?_⟩
  have current : w₁.db = currentKeys w₁.log := later.inv.current
  cases there : w₁.db.get keyId with
  | some key =>
    refine found key w₁ _ later rfl ⟨w₁.log,[],rfl,?_⟩
    rw [← current]
    exact there
  | none =>
    refine missing w₁ _ later rfl ?_
    rw [← current]
    exact there

/-- A session that missed its key comes back from a refresh with the key set it set. -/
theorem wp_refreshKeys {k : Unit → Apple Key α} (missed : Missed t w.log) (failed : ∀ error H w', Q (.error error) H w')
    (rest : ∀ w', wp (appleProtocol config) D token t (k ()) Q [] w') :
    wp (appleProtocol config) D token t (refreshKeys config >>= k) Q [] w := by
  apply wp_bind
  unfold refreshKeys
  apply wp_select
  · intro w₁ _ absent
    cases absent
  intro w₁ row later₁ _
  apply wp_observe
  intro w₂ later₂ _
  have here : () ∈ keys (⟨(),row⟩ :: [] : Held (AppleKeys Key) Unit) := List.mem_singleton_self _
  refine ⟨(AppleChange.requested here ((missed.later later₁).later later₂)).taken,?_⟩
  apply wp_supply
  intro i w₃ later₃ _
  split
  next => exact failed _ _ _
  next served came =>
    apply wp_commit
    · exact fun _ _ _ _ _ => failed _ _ _
    · intro _ w₄ db events later₄ _ written _
      cases written
      have last : (refreshes w₄.log).getLast? = some (t,.requested) := by
        rw [refreshes_locked (later₃.trans later₄) here,World.log_record,refreshes_append]
        exact List.getLast?_concat
      exact ⟨(AppleChange.served here last came).taken,rest _⟩

theorem wp_findKey (unheard : toldBy t w.log = []) : wp (appleProtocol config) D token t (findKey config keyId)
    (fun x _ w => ∀ key, x = .ok (some key) → KeyFound t keyId key w) [] w := by
  refine wp_lookUp (fun key w₁ w₂ _ _ found other same => ?_) fun w₁ w₂ later₁ same absent => ?_
  · cases same
    exact found
  · have missed : Missed t w₂.log := by
      rw [same]
      refine ⟨keyId,w₁.log,[],?_,rfl,absent⟩
      rw [World.log_record,List.map_cons,List.map_nil,toldBy_own,toldBy_later later₁,unheard]
      rfl
    refine wp_refreshKeys missed (fun _ _ _ _ same => nomatch same) fun w₃ => ?_
    intro w₄ later₄ _
    refine ⟨.inr (AppleChange.lookedUp keyId).taken,fun key same => ⟨w₄.log,[],rfl,?_⟩⟩
    have current : w₄.db = currentKeys w₄.log := later₄.inv.current
    rw [← current]
    exact Except.ok.inj same

/-- A login that was let through had a key that was current when it was looked up. -/
def AppleOutcome (config : AppleConfig Key) (token : String) (t : Nat) : Except AppleError String → AppleWorld Key → Prop
  | .ok appleId,w => config.clientIds ≠ [] ∧ ∃ keyId key now, signingKey config token = .ok (some keyId) ∧
      KeyFound t keyId key w ∧ subject config token key now = .ok appleId
  | .error _,_ => True

theorem AppleOutcome.later {x : Except AppleError String} (outcome : AppleOutcome config token t x w)
    (later : Later (appleProtocol config) D t H w w') : AppleOutcome config token t x w' := by
  cases x with
  | error error => trivial
  | ok appleId =>
    obtain ⟨configured,keyId,key,now,signed,found,named⟩ := outcome
    exact ⟨configured,keyId,key,now,signed,found.later later,named⟩

theorem appleMeets (config : AppleConfig Key) (D : Discipline (AppleKeys Key) AppleInput (AppleEvent Key)) :
    Meets (appleProtocol config) D (AppleOutcome config) (verifyIdentityToken config) := by
  intro token t w inv silent
  have unheard : toldBy t w.log = [] := by
    rw [← List.nil_append w.log]
    exact toldBy_others silent
  unfold verifyIdentityToken
  split
  · trivial
  next configured =>
    split
    · trivial
    · trivial
    next keyId signed =>
      apply wp_bind
      refine wp_mono (wp_findKey unheard) fun x H w₁ found => ?_
      cases x with
      | error error => trivial
      | ok known =>
        cases known with
        | none => trivial
        | some key =>
          apply wp_supply
          intro i w₂ later₂ _
          split
          next => trivial
          next appleId named => exact ⟨configured,keyId,key,i.now,signed,(found key rfl).later later₂,named⟩

end programs

/-- Any number of logins, their statements in any order, of a client that has no keys yet. -/
def AppleReachable (config : AppleConfig Key) (s : AppleSystem Key) : Prop :=
  Reach (verifyIdentityToken config) .none (System.initial ⟨[]⟩) s

section runs
variable {config : AppleConfig Key} {a s : AppleSystem Key}

theorem AppleReachable.good : ∃ H, Good (appleProtocol config) Discipline.none (AppleOutcome config)
    (System.initial ⟨[]⟩ : AppleSystem Key) H := by
  refine ⟨_,Good.initial _ ⟨rfl,?_,?_,?_⟩⟩
  · exact fun _ _ member => nomatch member
  · exact fun front _ _ same => absurd same.symm (by simp)
  · exact fun front _ _ _ same => absurd same.symm (by simp [refreshes])

theorem AppleReachable.inv (reachable : AppleReachable config s) : AppleInv config s.world := by
  obtain ⟨H,good⟩ := Reach.good reachable AppleReachable.good (appleMeets config _)
    fun _ _ _ _ _ outcome later => outcome.later later
  exact good.inv

theorem AppleReachable.outcome (reachable : AppleReachable config s) {t : Nat} {token appleId : String}
    (ended : s.session t = some ⟨token,.inr (.ok appleId)⟩) : AppleOutcome config token t (.ok appleId) s.world :=
  Reach.returned reachable AppleReachable.good (fun _ => rfl) (appleMeets config _)
    (fun _ _ _ _ _ outcome later => outcome.later later) ended

/-- In every state the key set is the one served last, and every key set is what some response came to. A login
asks for one only after its own lookup missed, and never again; no two of these refreshes overlap. -/
theorem appleRefreshes (reachable : AppleReachable config s) :
    s.db = currentKeys s.world.log ∧
      (∀ t keys, (t,.served keys) ∈ s.world.log → ∃ fetched, servedKeys config fetched = .ok keys) ∧
      (∀ front t back, s.world.log = front ++ (t,.requested) :: back →
        Missed t front ∧ ∀ entry ∈ front, entry.1 = t → ∃ keyId, entry.2 = .lookedUp keyId) ∧
      ∀ front t keys back, refreshes s.world.log = front ++ (t,.served keys) :: back →
        front.getLast? = some (t,.requested) := by
  have inv := reachable.inv
  refine ⟨inv.current,inv.answers,fun front t back same => ⟨inv.asked front t back same,?_⟩,inv.apart⟩
  obtain ⟨keyId,_,_,told,_,_⟩ := inv.asked front t back same
  intro entry member own
  have inside : entry.2 ∈ toldBy t front :=
    List.mem_map_of_mem (List.mem_filter.mpr ⟨member,decide_eq_true own⟩)
  rw [told] at inside
  exact ⟨keyId,List.mem_singleton.mp inside⟩

/-- A login that began after `a` and was let through has an RS256 token whose claims name the user under a key
that stood in the set current at a lookup of its own, later than `a`. -/
theorem appleTokens (reachable : AppleReachable config a)
    (run : Reach (verifyIdentityToken config) Discipline.none a s) {t : Nat} (later : a.session t = none)
    {token appleId : String} (ended : s.session t = some ⟨token,.inr (.ok appleId)⟩) :
    config.clientIds ≠ [] ∧ ∃ keyId key now before after, signingKey config token = .ok (some keyId) ∧
      subject config token key now = .ok appleId ∧ s.world.log = before ++ (t,.lookedUp keyId) :: after ∧
        a.world.log <+: before ∧ (currentKeys before).get keyId = some key := by
  have there : AppleReachable config s := Reach.trans reachable run
  obtain ⟨configured,keyId,key,now,signed,⟨before,after,log,found⟩,named⟩ := there.outcome ended
  refine ⟨configured,keyId,key,now,before,after,signed,named,log,?_,found⟩
  have silent := reachable.unheard rfl later
  have grown := run.log_grows
  rw [log] at grown
  exact prefix_of_unseen grown fun member => silent _ member rfl

end runs

namespace Sample
open Codec

/-- A client of a provider whose tokens are the ids of their keys. -/
def appleConfig : AppleConfig String where
  issuer := "https://appleid.apple.com"
  clientIds := ["com.dalm.app"]
  getUnverifiedHeader token := .ok [("alg",.string "RS256"),("kid",.string token)]
  fromDict members := match members.lookup "kid" with
    | some (.string keyId) => .ok keyId
    | _ => .error .jwtError
  decode token key _ _ _ := if token = key then .ok [("sub",.string "001234.abcd")] else .error .jwtError

/-- A response with one key. -/
def serves (keyId : String) : AppleInput :=
  ⟨0,.ok ⟨200,.ok (.object [("keys",.array [.object [("kid",.string keyId)]])])⟩⟩

/-- Two logins miss the same key. The first fetches it; the provider has rotated it when the second asks. -/
def rotated : List (Action AppleInput AppleError String) :=
  [.start 1 "old",.exec 1 (serves "old"),.start 2 "old",.exec 2 (serves "old")] ++
    List.replicate 7 (.exec 1 (serves "old")) ++ List.replicate 6 (.exec 2 (serves "new"))

def newLogin : List (Action AppleInput AppleError String) :=
  .start 3 "new" :: List.replicate 3 (.exec 3 (serves "new"))

def loginRefused (s : AppleSystem String) : Bool :=
  match s.session 2 with
  | some ⟨"old",.inr (.error error)⟩ => error = authenticationFailed
  | _ => false

def loginAccepted (s : AppleSystem String) : Bool :=
  match s.session 3 with
  | some ⟨"new",.inr (.ok _)⟩ => true
  | _ => false

end Sample

/-- After both refreshes the second of the two key sets stands. -/
theorem appleRefreshes_rotated : ∃ s : AppleSystem String, AppleReachable Sample.appleConfig s ∧
    (currentKeys s.world.log).get "new" = some "new" ∧ (currentKeys s.world.log).get "old" = none := by
  have passes : ((System.initial ⟨[]⟩ : AppleSystem String).run (verifyIdentityToken Sample.appleConfig)
      Sample.rotated).any (fun s => s.db.get "new" = some "new" ∧ s.db.get "old" = none) = true := by
    decide +kernel
  obtain ⟨s,ran,passed⟩ := (Option.any_eq_true _ _).mp passes
  have reachable : AppleReachable Sample.appleConfig s := Reach.of_run ran
  have current := of_decide_eq_true passed
  rw [(appleRefreshes reachable).1] at current
  exact ⟨s,reachable,current⟩

/-- After the rotation a login with the old key was refused, and one with the new key is let through. -/
theorem appleTokens_rotated : ∃ a s : AppleSystem String, AppleReachable Sample.appleConfig a ∧
    a.session 2 = some ⟨"old",.inr (.error authenticationFailed)⟩ ∧
      ∃ before after, s.world.log = before ++ (3,.lookedUp "new") :: after ∧ a.world.log <+: before ∧
        (currentKeys before).get "new" = some "new" := by
  have passes : ((System.initial ⟨[]⟩ : AppleSystem String).run (verifyIdentityToken Sample.appleConfig)
      Sample.rotated).any (fun a => (a.session 3).isNone && Sample.loginRefused a &&
        (a.run (verifyIdentityToken Sample.appleConfig) Sample.newLogin).any Sample.loginAccepted) = true := by
    decide +kernel
  obtain ⟨a,ran,passed⟩ := (Option.any_eq_true _ _).mp passes
  obtain ⟨⟨absent,refused⟩,passed⟩ : ((a.session 3).isNone = true ∧ Sample.loginRefused a = true) ∧ _ := by
    simpa only [Bool.and_eq_true] using passed
  obtain ⟨s,ran',accepted⟩ := (Option.any_eq_true _ _).mp passed
  have reachable : AppleReachable Sample.appleConfig a := Reach.of_run ran
  unfold Sample.loginRefused at refused
  unfold Sample.loginAccepted at accepted
  split at refused
  next error ended =>
    split at accepted
    next appleId ended' =>
      obtain ⟨_,keyId,key,_,before,after,signed,named,log,later,found⟩ := appleTokens reachable (Reach.of_run ran')
        (Option.isNone_iff_eq_none.mp absent) ended'
      cases signed
      have same : key = "new" := by
        by_contra other
        simp only [subject,Sample.appleConfig,if_neg (Ne.symm other)] at named
        cases named
      subst same
      exact ⟨a,s,reachable,of_decide_eq_true refused ▸ ended,before,after,log,later,found⟩
    next => cases accepted
  next => cases refused

end Dalm
