import Dalm.EventNotices

/-! Every event is notified of once. What the notifications of a reachable state say of a photo, a
match or a postcard is told by the states of its run. -/
namespace Dalm
open Relational

section runs
variable {K : Type} [Field K] [LinearOrder K] [IsStrictOrderedRing K] [FloorRing K]
  {settings : Settings} {sqrt : ℚ → K} {users : Table User.id} {s : Backend} {p : UUID}

/-- On the way to `s` a session with such a request took photo `p` from VALIDATING to REJECTED. -/
def RejectedBy (run : Request → App Response) (start s : Backend) (p : UUID) (who : Request → Prop) :
    Prop :=
  ∃ before t i session after, Reach run Discipline.none start before ∧
    before.step run (.exec t i) = some after ∧ Reach run Discipline.none after s ∧
    before.session t = some session ∧ who session.request ∧
    hasStatus before.db p .validating ∧ hasStatus after.db p .rejected

/-- Photo `p` was EXPIRED on the way to `s`. -/
def WasExpired (run : Request → App Response) (start s : Backend) (p : UUID) : Prop :=
  ∃ before, Reach run Discipline.none start before ∧ Reach run Discipline.none before s ∧
    hasStatus before.db p .expired

/-- Each event has its notifications, as many as there should be and for whom they should be. -/
structure NotifiedOnce (run : Request → App Response) (start s : Backend) : Prop where
  passed : ∀ photo ∈ s.db.photos.rows, ∀ row ∈ s.db.validations.rows, row.photoId = photo.id →
    recipients .validationPassed photo.id s.db.notifications.rows =
      if row.status = .passed then [photo.userId] else []
  rejected : ∀ photo ∈ s.db.photos.rows,
    (RejectedBy run start s photo.id (fun r => r.rejects = true) ∧
      recipients .photoRejected photo.id s.db.notifications.rows = [photo.userId]) ∨
    (¬ RejectedBy run start s photo.id (fun r => r.rejects = true) ∧
      recipients .photoRejected photo.id s.db.notifications.rows = [])
  timedOut : ∀ p, RejectedBy run start s p (fun r => r.rejects = false) →
    recipients .photoRejected p s.db.notifications.rows = []
  either : ∀ p, recipients .validationPassed p s.db.notifications.rows = [] ∨
    recipients .photoRejected p s.db.notifications.rows = []
  expired : ∀ photo ∈ s.db.photos.rows,
    (WasExpired run start s photo.id ∧
      recipients .searchExpired photo.id s.db.notifications.rows = [photo.userId]) ∨
    (¬ WasExpired run start s photo.id ∧
      recipients .searchExpired photo.id s.db.notifications.rows = [])
  matched : ∀ m, (s.db.matches_.get? m).isSome → ∃ u v, u ≠ v ∧
    (∀ x, (s.db.participants.get? (m,x)).isSome ↔ x = u ∨ x = v) ∧
    (recipients .matched m s.db.notifications.rows).Perm [u,v]
  received : ∀ card ∈ s.db.postcards.rows,
    recipients .postcardReceived card.id s.db.notifications.rows = [card.receiverId]

theorem Reachable.notified (reachable : Reachable settings sqrt users s) : Notified s.world := by
  have start : Reachable settings sqrt users (launch users) := .refl
  refine start.preserves (F := Notified) reachable (notified_launch users) ?_
  exact fun r t held a db events inv change _ before => change.notified inv before

theorem Reachable.announces (reachable : Reachable settings sqrt users s) {u : Backend}
    {action : Action Input Exc Request} (taken : s.step (program settings sqrt) action = some u) :
    u.world = s.world ∨ ∃ t i session events added, action = .exec t i ∧ s.session t = some session ∧
      Announces session.request s.world.db u.world.db events added ∧
      u.world.log = s.world.log ++ events.map (fun event => (t,event)) := by
  rcases reachable.change taken with same | ⟨t,i,session,held,db,events,acts,present,_,change,same⟩
  · exact .inl same
  · obtain ⟨added,announces⟩ := change.announces
    rw [same]
    exact .inr ⟨t,i,session,events,added,acts,present,announces,rfl⟩

theorem Reachable.rejected_iff (reachable : Reachable settings sqrt users s) :
    s.world.log.any (fun entry => entry.2.rejects p) = true ↔
      RejectedBy (program settings sqrt) (launch users) s p (fun r => r.rejects = true) := by
  constructor
  · intro told
    induction reachable with
    | refl => cases told
    | @step a b action before taken admitted ih =>
      have further : Reach (program settings sqrt) Discipline.none a b := .step action .refl taken admitted
      have earlier : a.world.log.any (fun entry => entry.2.rejects p) = true →
          RejectedBy (program settings sqrt) (launch users) b p fun r => r.rejects = true := by
        intro before_
        obtain ⟨c,t,i,session,d,one,two,three,rest⟩ := ih before_
        exact ⟨c,t,i,session,d,one,two,three.trans further,rest⟩
      rcases Reachable.announces before taken with same | ⟨t,i,session,events,added,rfl,present,announces,log⟩
      · exact earlier (same ▸ told)
      · rw [log,List.any_append,List.any_map,Bool.or_eq_true] at told
        rcases told with old | new
        · exact earlier old
        · rcases announces.rejected p with ⟨_,silent,_⟩ | ⟨photo,found,validating,_,_,rejected,report⟩
          · cases silent.symm.trans new
          · exact ⟨a,t,i,session,b,before,taken,.refl,present,report,⟨photo,found,validating⟩,rejected⟩
  · rintro ⟨a,t,i,session,b,before,taken,later,present,report,validating,rejected⟩
    have differs : ¬ hasStatus a.world.db p .rejected := by
      rintro ⟨photo,found,status⟩
      obtain ⟨other,found',status'⟩ := validating
      cases Option.some.inj (found.symm.trans found')
      cases status.symm.trans status'
    have grown := Reach.log_grows later
    rcases Reachable.announces before taken with same | ⟨t',i',session',events,added,acts,present',announces,log⟩
    · rw [System.db,show b.store.world = _ from same] at rejected
      exact absurd rejected differs
    · cases acts
      cases present.symm.trans present'
      rcases announces.rejected p with ⟨_,_,quiet⟩ | ⟨_,_,_,_,told,_⟩
      · rcases quiet rejected with wrong | none_
        · exact absurd wrong differs
        · cases none_.symm.trans report
      · refine List.any_eq_true.mpr ?_
        obtain ⟨event,member,rejects⟩ := List.any_eq_true.mp told
        refine ⟨(t,event),grown.subset ?_,rejects⟩
        rw [log]
        exact List.mem_append_right _ (List.mem_map_of_mem member)

theorem Reachable.expired_iff (reachable : Reachable settings sqrt users s) :
    s.world.log.any (fun entry => entry.2.expires p) = true ↔
      WasExpired (program settings sqrt) (launch users) s p := by
  constructor
  · intro told
    induction reachable with
    | refl => cases told
    | @step a b action before taken admitted ih =>
      have further : Reach (program settings sqrt) Discipline.none a b := .step action .refl taken admitted
      have earlier : a.world.log.any (fun entry => entry.2.expires p) = true →
          WasExpired (program settings sqrt) (launch users) b p := by
        intro before_
        obtain ⟨c,one,two,three⟩ := ih before_
        exact ⟨c,one,two.trans further,three⟩
      rcases Reachable.announces before taken with same | ⟨t,i,session,events,added,rfl,present,announces,log⟩
      · exact earlier (same ▸ told)
      · rw [log,List.any_append,List.any_map,Bool.or_eq_true] at told
        rcases told with old | new
        · exact earlier old
        · rcases announces.expired p with ⟨_,silent,_⟩ | ⟨_,_,_,_,_,expired⟩
          · cases silent.symm.trans new
          · exact ⟨b,before.step _ taken admitted,.refl,expired⟩
  · rintro ⟨a,before,later,expired⟩
    have there : Reachable settings sqrt users a := before
    rcases there.notified.expired p with ⟨_,_,never⟩ | ⟨_,_,_,_,told⟩
    · exact absurd expired never
    · obtain ⟨entry,member,expires⟩ := List.any_eq_true.mp told
      exact List.any_eq_true.mpr ⟨entry,(Reach.log_grows later).subset member,expires⟩

/-- A photo that a timeout rejected is never rejected by a report. -/
theorem Reachable.silent_timeout (timedOut : RejectedBy (program settings sqrt) (launch users) s p
    fun r => r.rejects = false) : s.world.log.any (fun entry => entry.2.rejects p) = false := by
  obtain ⟨a,t,i,session,b,before,taken,later,present,other,validating,rejected⟩ := timedOut
  have there : Reachable settings sqrt users a := before
  have after : Reachable settings sqrt users b := .step _ before taken (Reach.admits_none _)
  obtain ⟨photo,found,status⟩ := validating
  have untold : a.world.log.any (fun entry => entry.2.rejects p) = false := by
    rcases there.notified.rejected p with ⟨_,silent⟩ | ⟨photo',found',final,_⟩
    · exact silent
    · cases Option.some.inj (found.symm.trans found')
      rw [status] at final
      rcases final with wrong | wrong <;> cases wrong
  have start : (hasStatus b.world.db p .rejected ∨ hasStatus b.world.db p .deleted) ∧
      b.world.log.any (fun entry => entry.2.rejects p) = false := by
    refine ⟨.inl rejected,?_⟩
    rcases there.announces taken with same | ⟨t',i',session',events,added,acts,present',announces,log⟩
    · rw [same]
      exact untold
    · cases acts
      cases present.symm.trans present'
      rw [log,List.any_append,List.any_map,untold,Bool.false_or]
      rcases announces.rejected p with ⟨_,silent,_⟩ | ⟨_,_,_,_,_,_,report⟩
      · exact silent
      · cases other.symm.trans report
  have kept := after.preserves (F := fun w => (hasStatus w.db p .rejected ∨ hasStatus w.db p .deleted) ∧
    w.log.any (fun entry => entry.2.rejects p) = false) later start ?_
  · exact kept.2
  · rintro r t held a db events inv change - ⟨final,silent⟩
    obtain ⟨added,announces⟩ := change.announces
    obtain ⟨photo,found,status⟩ : ∃ photo, a.db.photos.get? p = some photo ∧
        (photo.status = .rejected ∨ photo.status = .deleted) := by
      rcases final with ⟨photo,found,status⟩ | ⟨photo,found,status⟩
      · exact ⟨photo,found,.inl status⟩
      · exact ⟨photo,found,.inr status⟩
    obtain ⟨photo',after,_,still⟩ := change.stays_final found (.inl rfl) status
    refine ⟨still.imp (fun same => ⟨photo',after,same⟩) fun same => ⟨photo',after,same⟩,?_⟩
    rw [any_record,silent,Bool.false_or]
    rcases announces.rejected p with ⟨_,untold,_⟩ | ⟨other,found',validating,_⟩
    · exact untold
    · cases Option.some.inj (found.symm.trans found')
      rw [validating] at status
      rcases status with wrong | wrong <;> cases wrong

theorem notifiedOnce (reachable : Reachable settings sqrt users s) :
    NotifiedOnce (program settings sqrt) (launch users) s where
  passed photo there row member same := by
    have present := Table.get?_of_mem there
    have queue : row.status = .passed ↔ Queued s.db photo.id := by
      rw [reachable.inv.embeddings.passed _ row (Table.get?_of_mem member),same]
      constructor
      · rintro ⟨e,job,found,owner⟩
        exact ⟨job,(Table.mem_rows_of_get? found).1,owner⟩
      · rintro ⟨job,inside,owner⟩
        exact ⟨_,job,Table.get?_of_mem inside,owner⟩
    rcases reachable.notified.passed photo.id with ⟨none_,unqueued⟩ | ⟨other,found,sent,queued⟩
    · rw [if_neg fun passed => unqueued (queue.mp passed)]
      exact none_
    · cases Option.some.inj (present.symm.trans found)
      rw [if_pos (queue.mpr queued)]
      exact sent
  rejected photo there := by
    have present := Table.get?_of_mem there
    rcases reachable.notified.rejected photo.id with ⟨none_,silent⟩ | ⟨other,found,_,sent,told,_⟩
    · refine .inr ⟨fun rejected => ?_,none_⟩
      cases silent.symm.trans (reachable.rejected_iff.mpr rejected)
    · cases Option.some.inj (present.symm.trans found)
      exact .inl ⟨reachable.rejected_iff.mp told,sent⟩
  timedOut p timedOut := by
    rcases reachable.notified.rejected p with ⟨none_,_⟩ | ⟨_,_,_,_,told,_⟩
    · exact none_
    · cases (Reachable.silent_timeout timedOut).symm.trans told
  either p := by
    rcases reachable.notified.rejected p with ⟨none_,_⟩ | ⟨_,_,_,_,_,unqueued⟩
    · exact .inr none_
    · rcases reachable.notified.passed p with ⟨none_,_⟩ | ⟨_,_,_,queued⟩
      · exact .inl none_
      · exact absurd queued unqueued
  expired photo there := by
    have present := Table.get?_of_mem there
    rcases reachable.notified.expired photo.id with ⟨none_,silent,_⟩ | ⟨other,found,_,sent,told⟩
    · refine .inr ⟨fun expired => ?_,none_⟩
      cases silent.symm.trans (reachable.expired_iff.mpr expired)
    · cases Option.some.inj (present.symm.trans found)
      exact .inl ⟨reachable.expired_iff.mp told,sent⟩
  matched m there := by
    obtain ⟨u,v,first,second,apart,one,two,_,others⟩ := reachable.inv.matches_.pair m there
    obtain ⟨distinct,seated⟩ := reachable.notified.matched m
    have seats : ∀ x, (s.db.participants.get? (m,x)).isSome ↔ x = u ∨ x = v := by
      intro x
      constructor
      · intro present
        obtain ⟨row,found⟩ := Option.isSome_iff_exists.mp present
        exact others x row found
      · rintro (rfl | rfl)
        · exact Option.isSome_iff_exists.mpr ⟨first,one⟩
        · exact Option.isSome_iff_exists.mpr ⟨second,two⟩
    refine ⟨u,v,apart,seats,?_⟩
    refine (List.perm_ext_iff_of_nodup distinct (by simpa using apart)).mpr fun x => ?_
    rw [List.mem_pair,← seats]
    exact seated x
  received card there := by
    refine (reachable.notified.received card.id).trans ?_
    rw [show s.world.db.postcards.get? card.id = some card from Table.get?_of_mem there]
    rfl

end runs

theorem notifiedOnce_matched : ∃ s, Sample.after Sample.matched = some s ∧
    NotifiedOnce (program Sample.settings Rat.sqrt) (launch Sample.users) s ∧
    recipients .validationPassed 11 s.db.notifications.rows = [1] ∧
    recipients .matched 300 s.db.notifications.rows = [1,2] := by
  obtain ⟨s,ran,reachable,sent⟩ := Sample.reached Sample.matched (fun s => decide
    (recipients .validationPassed 11 s.db.notifications.rows = [1] ∧
      recipients .matched 300 s.db.notifications.rows = [1,2])) (by decide)
  exact ⟨s,ran,notifiedOnce reachable,of_decide_eq_true sent⟩

end Dalm
