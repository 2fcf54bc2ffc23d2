import Agner.Actor.Ownership

/-!
The outcome of a receive on a single-threaded scheduler.

A receive that suspends ends in one of two ways: a message visitor runs in whoever delivers
the message, or its timeout visitor runs in the timer callback. The flag `active_` is what
keeps the second from following the first, and `pending_` what keeps the first from following
the second.

* `Gentle`: the condition on steps. Visitors and timeout visitors return normally and leave
  the mailbox of their own actor alone.
* `Settled`: the invariant, which says for every stage of a receive where its handle is, which
  of its visitors runs and whether it is pending.
* `timed_receive_one_outcome`: a handle is scheduled at most once, exactly one visitor has run
  by the time a receive is resumed, and the timer of a completed receive does nothing.
-/

namespace Agner

open Runs

/-- The receive whose timeout visitor the frame runs. -/
def Frame.expired? : Frame → Option ℕ
  | .expiring r => some r
  | _ => none

/-- What the stage of a receive says about its own members: a handle is scheduled once, and by
then one visitor has run; the flag is set at most until a visitor has run. -/
structure ReceiveAwaiter.Regular {M R : Type} (w : ReceiveAwaiter M R) : Prop where
  early : w.stage ≠ .scheduled → w.stage ≠ .done → w.scheduled = 0 ∧ w.outcomes = []
  late : w.stage = .scheduled ∨ w.stage = .done → w.scheduled ≤ 1 ∧ w.outcomes.length = 1
  active : w.active = some true → w.stage = .waiting ∨ w.stage = .delivering

namespace Runtime

variable {M R : Type}

/-- The receives whose timeout visitors are running. -/
def expired (s : Runtime M R) : List ℕ := s.stack.filterMap Frame.expired?

/-- The timeout visitor of a receive of the actor is running. -/
def TimingOut (s : Runtime M R) (a : ActorRef) : Prop :=
  ∃ r ∈ s.expired, (s.receives r).actor = a

instance (s : Runtime M R) (a : ActorRef) : Decidable (s.TimingOut a) :=
  inferInstanceAs (Decidable (∃ r ∈ s.expired, (s.receives r).actor = a))

/-- Visitors and timeout visitors return normally and do not touch the mailbox of their own
actor. -/
def Gentle (s : Runtime M R) (l : Label M R) : Prop :=
  s.Quiet l ∧
    match l with
    | .send target _ => s.registered target = true → ¬ s.TimingOut target
    | .stop target _ => s.registered target = true → ¬ s.TimingOut target
    | .unwind => s.expired = []
    | _ => True

instance (s : Runtime M R) (l : Label M R) : Decidable (s.Gentle l) :=
  match l with
  | .send target _ => inferInstanceAs
      (Decidable (_ ∧ (s.registered target = true → ¬ s.TimingOut target)))
  | .stop target _ => inferInstanceAs
      (Decidable (_ ∧ (s.registered target = true → ¬ s.TimingOut target)))
  | .unwind => inferInstanceAs (Decidable (_ ∧ s.expired = []))
  | .spawn .. | .link .. | .monitor .. | .receive .. | .visitorReturn _ | .timeoutReturn _
  | .finish | .signal | .throw | .catch | .resume | .fire _ =>
      inferInstanceAs (Decidable (_ ∧ True))

/-- Where the stage of a receive puts its handle and its visitors. -/
structure Fits (s : Runtime M R) (r : ℕ) : Prop where
  ready : s.ready.count (.receive r) = if (s.receives r).stage = .scheduled then 1 else 0
  delivering : (∃ position, Frame.visiting r position true ∈ s.stack) ↔
    (s.receives r).stage = .delivering
  matching : (∃ position, Frame.visiting r position false ∈ s.stack) ↔
    (s.receives r).stage = .matching
  expiring : Frame.expiring r ∈ s.stack ↔ (s.receives r).stage = .expiring
  pending : (s.actors (s.receives r).actor).pending = some r ↔
    (s.receives r).stage = .waiting ∨ (s.receives r).stage = .expiring

/-- The invariant. The last fields say that an actor has one coroutine, which is yet to start,
running, or suspended in one receive. -/
structure Settled (s : Runtime M R) : Prop where
  owned : Owned s
  fits : ∀ r, Fits s r
  regular : ∀ r, (s.receives r).Regular
  unused : ∀ r, s.nextReceive ≤ r → s.receives r = {}
  unique : ∀ r r', (s.receives r).stage.suspended = true →
    (s.receives r').stage.suspended = true → (s.receives r).actor = (s.receives r').actor → r = r'
  running : ∀ a, Frame.running a ∈ s.stack → a < s.sched.nextActorId ∧
    ∀ r, (s.receives r).actor = a → (s.receives r).stage.suspended = false
  start : ∀ a, Handle.start a ∈ s.ready → a < s.sched.nextActorId ∧
    s.ready.count (.start a) = 1 ∧ Frame.running a ∉ s.stack ∧
    ∀ r, (s.receives r).actor = a → (s.receives r).stage.suspended = false
  known : ∀ r, (s.receives r).stage ≠ .unused → (s.receives r).actor < s.sched.nextActorId

lemma settled_empty : Settled ({} : Runtime M R) := by
  refine ⟨owned_empty, fun r => ⟨by simp, by simp, by simp, by simp, by simp⟩,
    fun r => ⟨by simp, by simp, by simp⟩, fun r _ => rfl, ?_, ?_, ?_, ?_⟩
  · intro r r' h
    cases h
  · intro a ha
    cases ha
  · intro a ha
    cases ha
  · intro r hr
    exact absurd rfl hr

/-- A receive that a step does not concern. -/
lemma Fits.congr {s t : Runtime M R} {r : ℕ} (h : Fits s r)
    (hrecv : (t.receives r).stage = (s.receives r).stage ∧
      (t.receives r).actor = (s.receives r).actor)
    (hready : t.ready.count (.receive r) = s.ready.count (.receive r))
    (hvisit : ∀ position delivered, Frame.visiting r position delivered ∈ t.stack ↔
      Frame.visiting r position delivered ∈ s.stack)
    (hexpire : Frame.expiring r ∈ t.stack ↔ Frame.expiring r ∈ s.stack)
    (hpend : (t.actors (s.receives r).actor).pending = some r ↔
      (s.actors (s.receives r).actor).pending = some r) : Fits t r := by
  refine ⟨?_, ?_, ?_, ?_, ?_⟩
  · rw [hready, hrecv.1]
    exact h.ready
  · rw [hrecv.1, ← h.delivering]
    exact exists_congr fun p => hvisit p true
  · rw [hrecv.1, ← h.matching]
    exact exists_congr fun p => hvisit p false
  · rw [hrecv.1, hexpire]
    exact h.expiring
  · rw [hrecv.1, hrecv.2, hpend]
    exact h.pending

/-! ### Steps that concern no receive, and steps that concern one -/

/-- Frames other than visitors, mailboxes and the registry may change. -/
lemma Settled.control {s t : Runtime M R} (h : Settled s) (howned : Owned t)
    (hrecv : t.receives = s.receives) (hnext : t.nextReceive = s.nextReceive)
    (hpend : ∀ a, (t.actors a).pending = (s.actors a).pending) (hready : t.ready = s.ready)
    (hid : t.sched.nextActorId = s.sched.nextActorId)
    (hvisit : ∀ r position delivered, Frame.visiting r position delivered ∈ t.stack ↔
      Frame.visiting r position delivered ∈ s.stack)
    (hexpire : ∀ r, Frame.expiring r ∈ t.stack ↔ Frame.expiring r ∈ s.stack)
    (hrun : ∀ a, Frame.running a ∈ t.stack → Frame.running a ∈ s.stack) : Settled t := by
  refine ⟨howned, fun r => ?_, ?_, ?_, ?_, fun a ha => ?_, fun a ha => ?_, ?_⟩
  · refine (h.fits r).congr (by rw [hrecv]; exact ⟨rfl, rfl⟩) (by rw [hready]) (hvisit r)
      (hexpire r) (by rw [hpend])
  · rw [hrecv]
    exact h.regular
  · rw [hrecv, hnext]
    exact h.unused
  · rw [hrecv]
    exact h.unique
  · rw [hrecv, hid]
    exact h.running a (hrun a ha)
  · rw [hready] at ha ⊢
    rw [hrecv, hid]
    obtain ⟨hlt, hcount, hnot, hfree⟩ := h.start a ha
    exact ⟨hlt, hcount, fun hmem => hnot (hrun a hmem), hfree⟩
  · rw [hrecv, hid]
    exact h.known

/-- One receive moves to its next stage. -/
lemma Settled.moveRunning {s t : Runtime M R} (h : Settled s) (howned : Owned t) (r : ℕ)
    (hused : (s.receives r).stage ≠ .unused)
    (hothers : ∀ r', r' ≠ r → t.receives r' = s.receives r')
    (hactor : (t.receives r).actor = (s.receives r).actor)
    (hreg : (t.receives r).Regular) (hfits : Fits t r)
    (hsusp : (t.receives r).stage.suspended = true → (s.receives r).stage.suspended = true)
    (hready : ∀ r', r' ≠ r → t.ready.count (.receive r') = s.ready.count (.receive r'))
    (hvisit : ∀ r' position delivered, r' ≠ r →
      (Frame.visiting r' position delivered ∈ t.stack ↔
        Frame.visiting r' position delivered ∈ s.stack))
    (hexpire : ∀ r', r' ≠ r → (Frame.expiring r' ∈ t.stack ↔ Frame.expiring r' ∈ s.stack))
    (hpend : ∀ r', r' ≠ r → ((t.actors (s.receives r').actor).pending = some r' ↔
      (s.actors (s.receives r').actor).pending = some r'))
    (hnext : t.nextReceive = s.nextReceive)
    (hid : t.sched.nextActorId = s.sched.nextActorId)
    (hrun : ∀ a, Frame.running a ∈ t.stack → a < s.sched.nextActorId ∧
      ∀ r', (t.receives r').actor = a → (t.receives r').stage.suspended = false)
    (hstart : ∀ a, t.ready.count (.start a) = s.ready.count (.start a))
    (hstartRun : ∀ a, Handle.start a ∈ s.ready → Frame.running a ∉ t.stack) : Settled t := by
  have hrecv : ∀ r', (t.receives r').actor = (s.receives r').actor ∧
      ((t.receives r').stage.suspended = true → (s.receives r').stage.suspended = true) := by
    intro r'
    by_cases hr : r' = r
    · rw [hr]
      exact ⟨hactor, hsusp⟩
    · rw [hothers r' hr]
      exact ⟨rfl, id⟩
  refine ⟨howned, fun r' => ?_, fun r' => ?_, fun r' hr' => ?_, fun r₁ r₂ h₁ h₂ heq => ?_,
    fun a ha => ?_, fun a ha => ?_, fun r' hr' => ?_⟩
  · by_cases hr : r' = r
    · rw [hr]
      exact hfits
    · exact (h.fits r').congr (by rw [hothers r' hr]; exact ⟨rfl, rfl⟩) (hready r' hr)
        (fun p d => hvisit r' p d hr) (hexpire r' hr) (hpend r' hr)
  · by_cases hr : r' = r
    · rw [hr]
      exact hreg
    · rw [hothers r' hr]
      exact h.regular r'
  · rw [hnext] at hr'
    have hne : r' ≠ r := by
      rintro rfl
      rw [h.unused r' hr'] at hused
      exact hused rfl
    rw [hothers r' hne]
    exact h.unused r' hr'
  · rw [(hrecv r₁).1, (hrecv r₂).1] at heq
    exact h.unique r₁ r₂ ((hrecv r₁).2 h₁) ((hrecv r₂).2 h₂) heq
  · rw [hid]
    exact hrun a ha
  · have hmem : Handle.start a ∈ s.ready := by
      rw [← List.count_pos_iff, ← hstart a]
      exact List.count_pos_iff.mpr ha
    obtain ⟨hlt, hcount, -, hfree⟩ := h.start a hmem
    refine ⟨hid ▸ hlt, (hstart a).trans hcount, hstartRun a hmem, fun r' hr' => ?_⟩
    rw [(hrecv r').1] at hr'
    by_contra hs
    rw [Bool.not_eq_false] at hs
    exact absurd (hfree r' hr') (by rw [(hrecv r').2 hs]; simp)
  · rw [hid, (hrecv r').1]
    refine h.known r' ?_
    by_cases hr : r' = r
    · rw [hr]
      exact hused
    · rwa [hothers r' hr] at hr'

/-- The same, when no coroutine starts running. -/
lemma Settled.move {s t : Runtime M R} (h : Settled s) (howned : Owned t) (r : ℕ)
    (hused : (s.receives r).stage ≠ .unused)
    (hothers : ∀ r', r' ≠ r → t.receives r' = s.receives r')
    (hactor : (t.receives r).actor = (s.receives r).actor)
    (hreg : (t.receives r).Regular) (hfits : Fits t r)
    (hsusp : (t.receives r).stage.suspended = true → (s.receives r).stage.suspended = true)
    (hready : ∀ r', r' ≠ r → t.ready.count (.receive r') = s.ready.count (.receive r'))
    (hvisit : ∀ r' position delivered, r' ≠ r →
      (Frame.visiting r' position delivered ∈ t.stack ↔
        Frame.visiting r' position delivered ∈ s.stack))
    (hexpire : ∀ r', r' ≠ r → (Frame.expiring r' ∈ t.stack ↔ Frame.expiring r' ∈ s.stack))
    (hpend : ∀ r', r' ≠ r → ((t.actors (s.receives r').actor).pending = some r' ↔
      (s.actors (s.receives r').actor).pending = some r'))
    (hnext : t.nextReceive = s.nextReceive)
    (hid : t.sched.nextActorId = s.sched.nextActorId)
    (hrun : ∀ a, Frame.running a ∈ t.stack → Frame.running a ∈ s.stack)
    (hstart : ∀ a, t.ready.count (.start a) = s.ready.count (.start a)) : Settled t := by
  refine h.moveRunning howned r hused hothers hactor hreg hfits hsusp hready hvisit hexpire hpend
    hnext hid (fun a ha => ⟨(h.running a (hrun a ha)).1, fun r' hr' => ?_⟩) hstart
    fun a ha hmem => (h.start a ha).2.2.1 (hrun a hmem)
  have hold := (h.running a (hrun a ha)).2 r'
  by_cases hr : r' = r
  · subst hr
    rw [hactor] at hr'
    by_contra hs
    rw [Bool.not_eq_false] at hs
    exact absurd (hold hr') (by rw [hsusp hs]; simp)
  · rw [hothers r' hr] at hr' ⊢
    exact hold hr'

/-! ### Deliveries -/

/-- What `enqueue_message` does: the message is left in the mailbox, or the pending receive
runs a visitor. -/
lemma enqueueMessage_cases (s : Runtime M R) (a : ActorRef) (m : Message M) :
    s.enqueueMessage a m = s.pushMessage a m ∨
      ∃ r position, (s.actors a).pending = some r ∧
        tryMatchMailbox (s.receives r).visitors ((s.pushMessage a m).actors a).mailbox =
          some position ∧
        s.enqueueMessage a m =
          { ((s.pushMessage a m).updateActor a fun x => { x with pending := none }).updateReceive r
              fun w => { w with stage := .delivering } with
            stack := .visiting r position true :: s.stack } := by
  have hpend : ((s.pushMessage a m).actors a).pending = (s.actors a).pending := by
    simp [pushMessage]
  rw [enqueueMessage, notifyWaiterLocked, hpend]
  split
  · exact Or.inl rfl
  · rename_i r hr
    split
    · exact Or.inl rfl
    · rename_i position hmatch
      exact Or.inr ⟨r, position, hr, hmatch, rfl⟩

lemma Settled.waiting_of_pending {s : Runtime M R} (h : Settled s) {a : ActorRef} {r : ℕ}
    (hp : (s.actors a).pending = some r) (hq : ¬ s.TimingOut a) :
    (s.receives r).actor = a ∧ (s.receives r).stage = .waiting := by
  have hact := (h.owned.pending a r hp).2.1
  refine ⟨hact, ?_⟩
  rcases (h.fits r).pending.mp (by rw [hact]; exact hp) with hst | hst
  · exact hst
  · refine absurd ⟨r, ?_, hact⟩ hq
    exact List.mem_filterMap.mpr ⟨.expiring r, (h.fits r).expiring.mpr hst, rfl⟩

lemma Settled.enqueue {s : Runtime M R} (h : Settled s) {a : ActorRef}
    (hq : ¬ s.Searching a) (hq' : ¬ s.TimingOut a) (m : Message M) :
    Settled (s.enqueueMessage a m) := by
  have howned := h.owned.enqueue hq m
  rcases enqueueMessage_cases s a m with heq | ⟨r, position, hp, -, heq⟩
  · rw [heq] at howned ⊢
    refine h.control howned rfl rfl (fun x => ?_) rfl rfl (fun _ _ _ => Iff.rfl)
      (fun _ => Iff.rfl) fun _ => id
    by_cases hx : x = a <;> simp [pushMessage, hx]
  · obtain ⟨hact, hst⟩ := h.waiting_of_pending hp hq'
    have hfit := h.fits r
    have hreg := h.regular r
    rw [heq] at howned ⊢
    refine h.move howned r (by rw [hst]; simp) (fun r' hr => by simp [hr, pushMessage]) (by
      simp [pushMessage]) ⟨?_, ?_, ?_⟩ ⟨?_, ?_, ?_, ?_, ?_⟩ (by simp [hst, Stage.suspended])
      (fun _ _ => rfl) (fun r' p d hr => by simp [hr]) (fun r' hr => by simp) (fun r' hr => ?_)
      rfl rfl (fun x hx => by simpa using hx) fun _ => rfl
    · simpa [pushMessage] using hreg.early (by rw [hst]; simp) (by rw [hst]; simp)
    · simp
    · simp
    · have := hfit.ready
      simpa [pushMessage, hst] using this
    · simp [pushMessage]
    · have := hfit.matching
      simpa [pushMessage, hst] using this
    · have := hfit.expiring
      simpa [pushMessage, hst] using this
    · simp [pushMessage, hact]
    · by_cases hx : (s.receives r').actor = a
      · have hne : (s.actors a).pending ≠ some r' := by
          rw [hp]
          simpa using Ne.symm hr
        simp [hx, hne]
      · simp [hx, pushMessage]

lemma Settled.send {s : Runtime M R} (h : Settled s) {a : ActorRef}
    (hq : s.registered a = true → ¬ s.Searching a)
    (hq' : s.registered a = true → ¬ s.TimingOut a) (m : Message M) : Settled (s.send a m) := by
  rw [Runtime.send]
  split
  · rename_i hreg
    exact h.enqueue (hq hreg) (hq' hreg) m
  · exact h

/-! ### Receives begin -/

/-- A new receive appears in the stage its awaiter is in. -/
lemma Settled.add {s t : Runtime M R} (h : Settled s) (howned : Owned t)
    (w : ReceiveAwaiter M R)
    (hrecv : ∀ r, t.receives r = if r = s.nextReceive then w else s.receives r)
    (hnext : t.nextReceive = s.nextReceive + 1) (hlt : w.actor < s.sched.nextActorId)
    (hreg : w.Regular) (hfits : Fits t s.nextReceive)
    (hfree : ∀ r, (s.receives r).actor = w.actor → (s.receives r).stage.suspended = false)
    (hready : t.ready = s.ready)
    (hvisit : ∀ r position delivered, r ≠ s.nextReceive →
      (Frame.visiting r position delivered ∈ t.stack ↔
        Frame.visiting r position delivered ∈ s.stack))
    (hexpire : ∀ r, Frame.expiring r ∈ t.stack ↔ Frame.expiring r ∈ s.stack)
    (hpend : ∀ r, r ≠ s.nextReceive → ((t.actors (s.receives r).actor).pending = some r ↔
      (s.actors (s.receives r).actor).pending = some r))
    (hid : t.sched.nextActorId = s.sched.nextActorId)
    (hrun : ∀ x, Frame.running x ∈ t.stack → Frame.running x ∈ s.stack ∧
      w.stage.suspended = false)
    (hstart : Handle.start w.actor ∉ s.ready) : Settled t := by
  have hnew : t.receives s.nextReceive = w := by rw [hrecv, if_pos rfl]
  have hold : ∀ r, r ≠ s.nextReceive → t.receives r = s.receives r :=
    fun r hr => by rw [hrecv, if_neg hr]
  refine ⟨howned, fun r => ?_, fun r => ?_, fun r hr => ?_, fun r₁ r₂ h₁ h₂ heq => ?_,
    fun x hx => ?_, fun x hx => ?_, fun r hr => ?_⟩
  · by_cases hr : r = s.nextReceive
    · rw [hr]
      exact hfits
    · exact (h.fits r).congr (by rw [hold r hr]; exact ⟨rfl, rfl⟩) (by rw [hready])
        (fun p d => hvisit r p d hr) (hexpire r) (hpend r hr)
  · by_cases hr : r = s.nextReceive
    · rw [hr, hnew]
      exact hreg
    · rw [hold r hr]
      exact h.regular r
  · rw [hnext] at hr
    rw [hold r (by omega)]
    exact h.unused r (by omega)
  · -- the actor of the new receive is in no other one
    by_cases hr₁ : r₁ = s.nextReceive <;> by_cases hr₂ : r₂ = s.nextReceive
    · rw [hr₁, hr₂]
    · rw [hr₁, hnew, hold r₂ hr₂] at heq
      rw [hold r₂ hr₂] at h₂
      exact absurd (hfree r₂ heq.symm) (by rw [h₂]; simp)
    · rw [hr₂, hnew, hold r₁ hr₁] at heq
      rw [hold r₁ hr₁] at h₁
      exact absurd (hfree r₁ heq) (by rw [h₁]; simp)
    · rw [hold r₁ hr₁] at h₁ heq
      rw [hold r₂ hr₂] at h₂ heq
      exact h.unique r₁ r₂ h₁ h₂ heq
  · obtain ⟨hmem, hst⟩ := hrun x hx
    refine ⟨hid ▸ (h.running x hmem).1, fun r hr => ?_⟩
    by_cases hrn : r = s.nextReceive
    · rw [hrn, hnew]
      exact hst
    · rw [hold r hrn] at hr ⊢
      exact (h.running x hmem).2 r hr
  · rw [hready] at hx ⊢
    obtain ⟨hltx, hcount, hnot, hfreex⟩ := h.start x hx
    refine ⟨hid ▸ hltx, hcount, fun hmem => hnot (hrun x hmem).1, fun r hr => ?_⟩
    by_cases hrn : r = s.nextReceive
    · rw [hrn, hnew] at hr
      exact absurd hx (hr ▸ hstart)
    · rw [hold r hrn] at hr ⊢
      exact hfreex r hr
  · rw [hid]
    by_cases hrn : r = s.nextReceive
    · rw [hrn, hnew]
      exact hlt
    · rw [hold r hrn] at hr ⊢
      exact h.known r hr

lemma Settled.beginReceive {s : Runtime M R} (h : Settled s) {a : ActorRef} {rest : List Frame}
    (hstack : s.stack = .running a :: rest) (visitors : List (Visitor M)) (timed : Bool) :
    Settled (s.beginReceive a rest visitors timed) := by
  have howned := h.owned.beginReceive hstack visitors timed
  have hrest : rest = [] := h.owned.rest_eq_nil hstack rfl
  have hmem : Frame.running a ∈ s.stack := by simp [hstack]
  obtain ⟨hlt, hfree⟩ := h.running a hmem
  have hstart : Handle.start a ∉ s.ready := fun hs => (h.start a hs).2.2.1 hmem
  have hempty : s.receives s.nextReceive = {} := h.unused _ le_rfl
  have hfit := h.fits s.nextReceive
  have hcount : s.ready.count (.receive s.nextReceive) = 0 := by
    rw [hfit.ready, hempty]
    rfl
  -- no receive of the actor is pending while its coroutine runs
  have hnone : ∀ r, (s.actors a).pending ≠ some r := by
    intro r hr
    have hact := (h.owned.pending a r hr).2.1
    have hs := hfree r hact
    rcases (h.fits r).pending.mp (by rw [hact]; exact hr) with hst | hst <;>
      simp [hst, Stage.suspended] at hs
  rw [Runtime.beginReceive] at howned ⊢
  split at howned
  · rename_i position hsome
    simp only
    refine h.add howned { actor := a, visitors := visitors, timed := timed, stage := .matching }
      (fun r => Function.update_apply _ _ _ _) rfl hlt ⟨by simp, by simp, by simp⟩
      ⟨?_, ?_, ?_, ?_, ?_⟩ hfree rfl (fun r p d hr => by simp [hr])
      (fun r => by simp) (fun _ _ => Iff.rfl) rfl
      (fun x hx => ⟨by simpa [newReceive] using hx, rfl⟩) hstart
    · simpa [newReceive] using hcount
    · simp [newReceive, hstack, hrest]
    · simp [newReceive]
    · simp [newReceive, hstack, hrest]
    · simpa [newReceive] using hnone s.nextReceive
  · rename_i hno
    simp only
    refine h.add howned { actor := a, visitors := visitors, timed := timed, stage := .waiting,
                          active := if timed then some true else none }
      (fun r => ?_) rfl hlt ⟨by simp, by simp, by simp⟩
      ⟨?_, ?_, ?_, ?_, ?_⟩ hfree rfl (fun r p d hr => by simp [hstack, hrest])
      (fun r => by simp [hstack, hrest]) (fun r hr => ?_) rfl
      (fun x hx => by simp [hrest] at hx) hstart
    · by_cases hr : r = s.nextReceive
      · simp [awaitSuspend, newReceive, hr]
      · simp [awaitSuspend, newReceive, hr]
    · simpa [awaitSuspend, newReceive] using hcount
    · simp [awaitSuspend, newReceive, hrest]
    · simp [awaitSuspend, newReceive, hrest]
    · simp [awaitSuspend, newReceive, hrest]
    · simp [awaitSuspend, newReceive]
    · by_cases hx : (s.receives r).actor = a
      · simp [awaitSuspend, newReceive, hx, hnone r, Ne.symm hr]
      · simp [awaitSuspend, newReceive, hx]

/-! ### Receives end -/

/-- A receive is visited by one frame. -/
lemma Owned.not_mem_rest {s : Runtime M R} (h : Owned s) {r position : ℕ} {delivered : Bool}
    {rest : List Frame} (hstack : s.stack = .visiting r position delivered :: rest)
    (p : ℕ) (d : Bool) : Frame.visiting r p d ∉ rest := by
  intro hmem
  have hnodup := List.Nodup.of_map _ h.searched
  have hvis : s.visited = r :: rest.filterMap Frame.visited? := by
    rw [visited, hstack]
    rfl
  rw [hvis, List.nodup_cons] at hnodup
  exact hnodup.1 (List.mem_filterMap.mpr ⟨_, hmem, rfl⟩)

lemma Settled.visitorReturned {s : Runtime M R} (h : Settled s) {r position : ℕ}
    {delivered : Bool} {rest : List Frame} {e : Envelope M} {value : R}
    (hstack : s.stack = .visiting r position delivered :: rest)
    (howned : Owned (s.visitorReturned rest r position delivered e value)) :
    Settled (s.visitorReturned rest r position delivered e value) := by
  have hnot := h.owned.not_mem_rest hstack
  have hfit := h.fits r
  have hreg := h.regular r
  have hmem : Frame.visiting r position delivered ∈ s.stack := by simp [hstack]
  rw [Runtime.visitorReturned] at howned ⊢
  cases delivered with
  | true =>
      have hst : (s.receives r).stage = .delivering := hfit.delivering.mp ⟨position, hmem⟩
      obtain ⟨hzero, hnil⟩ := hreg.early (by rw [hst]; simp) (by rw [hst]; simp)
      have hready := hfit.ready
      have hexp := hfit.expiring
      have hpend := hfit.pending
      simp only [hst, hstack] at hready hexp hpend
      simp only [if_true] at howned ⊢
      refine h.move howned r (by rw [hst]; simp)
        (fun r' hr => by simp [Runtime.schedule, completeMatch, hr])
        (by simp [Runtime.schedule, completeMatch]) ⟨?_, ?_, ?_⟩ ⟨?_, ?_, ?_, ?_, ?_⟩
        (by simp [hst, Stage.suspended])
        (fun r' hr => by simp [Runtime.schedule, completeMatch, Ne.symm hr])
        (fun r' p d hr => by simp [Runtime.schedule, hstack, hr])
        (fun r' hr => by simp [Runtime.schedule, hstack]) (fun r' hr => ?_) rfl rfl
        (fun x hx => by simpa [Runtime.schedule, hstack] using hx)
        fun x => by simp [Runtime.schedule, completeMatch]
      · simp [Runtime.schedule, completeMatch]
      · simp [Runtime.schedule, completeMatch, hzero, hnil]
      · simp [Runtime.schedule, completeMatch]
      · simp [Runtime.schedule, completeMatch, hready]
      · simp [Runtime.schedule, completeMatch, hnot]
      · simp [Runtime.schedule, completeMatch, hnot]
      · simpa [Runtime.schedule, completeMatch] using hexp
      · simpa [Runtime.schedule, completeMatch] using hpend
      · by_cases hx : (s.receives r').actor = (s.receives r).actor <;>
          simp [Runtime.schedule, completeMatch, hx]
  | false =>
      have hst : (s.receives r).stage = .matching := hfit.matching.mp ⟨position, hmem⟩
      obtain ⟨hzero, hnil⟩ := hreg.early (by rw [hst]; simp) (by rw [hst]; simp)
      have hready := hfit.ready
      have hexp := hfit.expiring
      have hpend := hfit.pending
      simp only [hst, hstack] at hready hexp hpend
      simp only [Bool.false_eq_true, if_false] at howned ⊢
      refine h.move howned r (by rw [hst]; simp) (fun r' hr => by simp [completeMatch, hr])
        (by simp [completeMatch]) ⟨?_, ?_, ?_⟩ ⟨?_, ?_, ?_, ?_, ?_⟩ (by simp [Stage.suspended])
        (fun r' hr => by simp [completeMatch]) (fun r' p d hr => by simp [hstack, hr])
        (fun r' hr => by simp [hstack]) (fun r' hr => ?_) rfl rfl
        (fun x hx => by simpa [hstack] using hx) fun x => by simp [completeMatch]
      · simp
      · simp [completeMatch, hzero, hnil]
      · simp [completeMatch]
      · simp [completeMatch, hready]
      · simp [hnot]
      · simp [hnot]
      · simpa [completeMatch] using hexp
      · simpa [completeMatch] using hpend
      · by_cases hx : (s.receives r').actor = (s.receives r).actor <;>
          simp [completeMatch, hx]

lemma Settled.timeoutReturned {s : Runtime M R} (h : Settled s) {r : ℕ} {rest : List Frame}
    {value : R} (hstack : s.stack = .expiring r :: rest)
    (howned : Owned (s.timeoutReturned rest r value)) :
    Settled (s.timeoutReturned rest r value) := by
  have hrest : rest = [] := h.owned.rest_eq_nil hstack rfl
  have hfit := h.fits r
  have hst : (s.receives r).stage = .expiring := hfit.expiring.mp (by simp [hstack])
  obtain ⟨hzero, hnil⟩ := (h.regular r).early (by rw [hst]; simp) (by rw [hst]; simp)
  have hready := hfit.ready
  have hactive := (h.regular r).active
  simp only [hst] at hready hactive
  have hpend := hfit.pending.mpr (Or.inr hst)
  refine h.move howned r (by rw [hst]; simp)
    (fun r' hr => by simp [Runtime.timeoutReturned, Runtime.schedule, hr])
    (by simp [Runtime.timeoutReturned, Runtime.schedule]) ⟨?_, ?_, ?_⟩ ⟨?_, ?_, ?_, ?_, ?_⟩
    (by simp [hst, Stage.suspended])
    (fun r' hr => by simp [Runtime.timeoutReturned, Runtime.schedule, Ne.symm hr])
    (fun r' p d hr => by simp [Runtime.timeoutReturned, Runtime.schedule, hstack])
    (fun r' hr => by simp [Runtime.timeoutReturned, Runtime.schedule, hstack, hr])
    (fun r' hr => ?_) rfl rfl
    (fun x hx => by simp [Runtime.timeoutReturned, Runtime.schedule, hrest] at hx)
    fun x => by simp [Runtime.timeoutReturned, Runtime.schedule]
  · simp [Runtime.timeoutReturned, Runtime.schedule]
  · simp [Runtime.timeoutReturned, Runtime.schedule, hzero, hnil]
  · simpa [Runtime.timeoutReturned, Runtime.schedule] using hactive
  · simp [Runtime.timeoutReturned, Runtime.schedule, hready]
  · simp [Runtime.timeoutReturned, Runtime.schedule, hrest]
  · simp [Runtime.timeoutReturned, Runtime.schedule, hrest]
  · simp [Runtime.timeoutReturned, Runtime.schedule, hrest]
  · simp [Runtime.timeoutReturned, Runtime.schedule]
  · by_cases hx : (s.receives r').actor = (s.receives r).actor
    · simp [Runtime.timeoutReturned, Runtime.schedule, hx, hpend, Ne.symm hr]
    · simp [Runtime.timeoutReturned, Runtime.schedule, hx]

/-- A timer callback whose flag is cleared returns at once. -/
lemma fireTimer_of_inactive {s : Runtime M R} {r : ℕ}
    (hactive : (s.receives r).active ≠ some true) :
    s.fireTimer r = { s with timers := s.timers.erase r } := by
  rw [fireTimer]
  exact if_neg hactive

lemma Settled.fireTimer {s : Runtime M R} (h : Settled s) {r : ℕ} (hstack : s.stack = [])
    (howned : Owned (s.fireTimer r)) : Settled (s.fireTimer r) := by
  by_cases hactive : (s.receives r).active = some true
  · have hfit := h.fits r
    have hst : (s.receives r).stage = .waiting := by
      rcases (h.regular r).active hactive with hst | hst
      · exact hst
      · obtain ⟨p, hp⟩ := hfit.delivering.mpr hst
        rw [hstack] at hp
        cases hp
    obtain ⟨hzero, hnil⟩ := (h.regular r).early (by rw [hst]; simp) (by rw [hst]; simp)
    have hready := hfit.ready
    have hpend := hfit.pending.mpr (Or.inl hst)
    simp only [hst] at hready
    have hfire : s.fireTimer r =
        { ({ s with timers := s.timers.erase r } : Runtime M R).updateReceive r
            fun w => { w with active := some false, stage := .expiring } with
          stack := .expiring r :: s.stack } := by
      rw [Runtime.fireTimer]
      exact if_pos hactive
    rw [hfire] at howned ⊢
    refine h.move howned r (by rw [hst]; simp) (fun r' hr => by simp [hr]) (by simp)
      ⟨?_, ?_, ?_⟩ ⟨?_, ?_, ?_, ?_, ?_⟩ (by simp [hst, Stage.suspended]) (fun _ _ => rfl)
      (fun r' p d hr => by simp) (fun r' hr => by simp [hr]) (fun _ _ => Iff.rfl) rfl rfl
      (fun x hx => by simpa using hx) fun _ => rfl
    · simp [hzero, hnil]
    · simp
    · simp
    · simpa using hready
    · simp [hstack]
    · simp [hstack]
    · simp
    · simpa using hpend
  · rw [fireTimer_of_inactive hactive] at howned ⊢
    exact h.control howned rfl rfl (fun _ => rfl) rfl rfl (fun _ _ _ => Iff.rfl)
      (fun _ => Iff.rfl) fun _ => id

/-! ### Coroutines start and go on -/

lemma Settled.resumeStart {s : Runtime M R} (h : Settled s) {a : ActorRef} {ready : List Handle}
    (hstack : s.stack = []) (hready : s.ready = .start a :: ready)
    (howned : Owned ({ s with ready := ready, stack := [.running a] } : Runtime M R)) :
    Settled ({ s with ready := ready, stack := [.running a] } : Runtime M R) := by
  obtain ⟨hlt, hcount, -, hfree⟩ := h.start a (by simp [hready])
  refine ⟨howned, fun r => ?_, h.regular, h.unused, h.unique, fun x hx => ?_, fun x hx => ?_,
    h.known⟩
  · refine (h.fits r).congr ⟨rfl, rfl⟩ (by simp [hready]) (fun p d => by simp [hstack])
      (by simp [hstack]) Iff.rfl
  · obtain rfl : x = a := by simpa using hx
    exact ⟨hlt, hfree⟩
  · have hx' : Handle.start x ∈ ready := hx
    obtain ⟨hltx, hcountx, -, hfreex⟩ :=
      h.start x (by rw [hready]; exact List.mem_cons_of_mem _ hx')
    have hxa : x ≠ a := by
      rintro rfl
      rw [hready, List.count_cons_self] at hcount
      exact absurd (List.count_pos_iff.mpr hx') (by omega)
    refine ⟨hltx, ?_, by simpa using hxa, hfreex⟩
    rw [hready, List.count_cons_of_ne (by simpa using Ne.symm hxa)] at hcountx
    exact hcountx

lemma Settled.resumeReceive {s : Runtime M R} (h : Settled s) {r : ℕ} {ready : List Handle}
    (hstack : s.stack = []) (hready : s.ready = .receive r :: ready)
    (howned : Owned ({ s.updateReceive r fun w => { w with stage := .done } with
      ready := ready, stack := [.running (s.receives r).actor] } : Runtime M R)) :
    (s.receives r).stage = .scheduled ∧
    Settled ({ s.updateReceive r fun w => { w with stage := .done } with
      ready := ready, stack := [.running (s.receives r).actor] } : Runtime M R) := by
  have hfit := h.fits r
  have hone := hfit.ready
  rw [hready, List.count_cons_self] at hone
  have hst : (s.receives r).stage = .scheduled := by
    by_contra hne
    rw [if_neg hne] at hone
    omega
  rw [if_pos hst] at hone
  have hpend := hfit.pending
  simp only [hst] at hpend
  refine ⟨hst, h.moveRunning howned r (by rw [hst]; simp) (fun r' hr => by simp [hr]) (by simp)
    ⟨?_, ?_, ?_⟩ ⟨?_, ?_, ?_, ?_, ?_⟩ (by simp [Stage.suspended])
    (fun r' hr => by simp [hready, Ne.symm hr]) (fun r' p d hr => by simp [hstack])
    (fun r' hr => by simp [hstack]) (fun _ _ => Iff.rfl) rfl rfl (fun x hx => ?_)
    (fun x => by simp [hready]) (fun x hx hmem => ?_)⟩
  · simp
  · simpa using (h.regular r).late (Or.inl hst)
  · simpa [hst] using (h.regular r).active
  · simpa using hone
  · simp
  · simp
  · simp
  · simpa using hpend
  · -- the actor was suspended in this receive, and so in no other
    obtain rfl : x = (s.receives r).actor := by simpa using hx
    refine ⟨h.known r (by rw [hst]; simp), fun r' hr' => ?_⟩
    by_cases hr : r' = r
    · simp [hr, Stage.suspended]
    · simp only [updateReceive_receives, hr, if_false] at hr' ⊢
      by_contra hs
      rw [Bool.not_eq_false] at hs
      exact hr (h.unique r' r hs (by rw [hst]; rfl) hr')
  · obtain rfl : x = (s.receives r).actor := by simpa using hmem
    have hs := (h.start _ hx).2.2.2 r rfl
    simp [hst, Stage.suspended] at hs

lemma Settled.spawn {s : Runtime M R} (h : Settled s) (linker monitorRef : ActorRef)
    (howned : Owned ({ s with
      sched := (s.sched.spawnImpl linker monitorRef).2
      ready := s.ready ++ [.start (s.sched.spawnImpl linker monitorRef).1] } : Runtime M R)) :
    Settled ({ s with
      sched := (s.sched.spawnImpl linker monitorRef).2
      ready := s.ready ++ [.start (s.sched.spawnImpl linker monitorRef).1] } : Runtime M R) := by
  have hid : (s.sched.spawnImpl linker monitorRef).2.nextActorId = s.sched.nextActorId + 1 := rfl
  have href : (s.sched.spawnImpl linker monitorRef).1 = s.sched.nextActorId := rfl
  rw [href] at howned ⊢
  have hfresh : Handle.start s.sched.nextActorId ∉ s.ready :=
    fun hmem => absurd (h.start _ hmem).1 (lt_irrefl _)
  refine ⟨howned, fun r => ?_, h.regular, h.unused, h.unique, fun x hx => ?_, fun x hx => ?_,
    fun r hr => Nat.lt_succ_of_lt (h.known r hr)⟩
  · exact (h.fits r).congr ⟨rfl, rfl⟩ (by simp) (fun _ _ => Iff.rfl) Iff.rfl Iff.rfl
  · exact ⟨Nat.lt_succ_of_lt (h.running x hx).1, (h.running x hx).2⟩
  · rcases List.mem_append.mp hx with hx | hx
    · obtain ⟨hltx, hcountx, hnotx, hfreex⟩ := h.start x hx
      refine ⟨Nat.lt_succ_of_lt hltx, ?_, hnotx, hfreex⟩
      rw [List.count_append, hcountx, List.count_singleton]
      simp [hltx.ne']
    · obtain rfl : x = s.sched.nextActorId := by simpa using hx
      refine ⟨Nat.lt_succ_self _, ?_, fun hmem => ?_, fun r hr => ?_⟩
      · rw [List.count_append, List.count_eq_zero_of_not_mem hfresh]
        simp
      · exact absurd (h.running _ hmem).1 (lt_irrefl _)
      · by_contra hs
        have hused : (s.receives r).stage ≠ .unused := by
          intro hst
          rw [hst] at hs
          exact hs rfl
        have hlt := h.known r hused
        rw [hr] at hlt
        exact lt_irrefl _ hlt

/-! ### Whole runs -/

/-- One gentle step keeps the invariant. -/
lemma Settled.step {s t : Runtime M R} {l : Label M R} (h : Settled s) (hg : s.Gentle l)
    (hstep : s.step l = some t) : Settled t := by
  have howned := (h.owned.step hg.1 hstep).1
  cases moves_of_step hstep with
  | spawn linker monitorRef => exact h.spawn linker monitorRef howned
  | link left right sched _ hlink =>
      exact h.control howned rfl rfl (fun _ => rfl) rfl (SchedulerBase.nextActorId_link hlink)
        (fun _ _ _ => Iff.rfl) (fun _ => Iff.rfl) fun _ => id
  | monitor monitorRef targetRef sched _ hmonitor =>
      exact h.control howned rfl rfl (fun _ => rfl) rfl (SchedulerBase.nextActorId_monitor hmonitor)
        (fun _ _ _ => Iff.rfl) (fun _ => Iff.rfl) fun _ => id
  | linkRaises | monitorRaises | stopRaises | throw | «catch» =>
      exact h.control howned rfl rfl (fun _ => rfl) rfl rfl (fun _ _ _ => Iff.rfl)
        (fun _ => Iff.rfl) fun _ => id
  | send target m => exact h.send hg.1 hg.2 _
  | stop target reason _ hreg =>
      have hset : Settled (s.updateActor target fun x => { x with exitReason := some reason }) := by
        refine h.control (h.owned.setExitReason target reason).1 rfl rfl (fun a => ?_) rfl rfl
          (fun _ _ _ => Iff.rfl) (fun _ => Iff.rfl) fun _ => id
        by_cases ha : a = target <;> simp [ha]
      exact hset.enqueue (hg.1 hreg) (hg.2 hreg) _
  | receive visitors timed a rest _ hstack => exact h.beginReceive hstack visitors timed
  | visitorReturn value r position delivered rest e _ hstack he =>
      exact h.visitorReturned hstack howned
  | timeoutReturn value r rest _ hstack => exact h.timeoutReturned hstack howned
  | finish a rest _ hstack | unwindRunning a rest _ hstack =>
      exact h.control howned rfl rfl (fun _ => rfl) rfl rfl
        (fun r p d => by simp [beginExit, hstack]) (fun r => by simp [beginExit, hstack])
        fun x hx => by simp [beginExit, h.owned.rest_eq_nil hstack rfl] at hx
  | signalled a rest _ hstack | unwindExiting a signals rest _ hstack =>
      exact h.control howned rfl rfl (fun _ => rfl) rfl rfl (fun r p d => by simp [hstack])
        (fun r => by simp [hstack]) fun x hx => by
          simp [h.owned.rest_eq_nil hstack rfl] at hx
  | signal a target sg signals rest _ hstack =>
      have hrest := h.owned.rest_eq_nil hstack rfl
      have hpop : Settled ({ s with stack := [.exiting a signals] } : Runtime M R) := by
        refine h.control (h.owned.setExiting a signals).1 rfl rfl (fun _ => rfl) rfl rfl
          (fun r p d => by simp [hstack, hrest]) (fun r => by simp [hstack, hrest])
          fun x hx => ?_
        simp at hx
      rw [hrest]
      refine hpop.send (fun _ hs => ?_) (fun _ hs => ?_) _
      · obtain ⟨r, hr, -⟩ := hs
        simp [visited, Frame.visited?, List.filterMap_cons] at hr
      · obtain ⟨r, hr, -⟩ := hs
        simp [expired, Frame.expired?, List.filterMap_cons] at hr
  | unwindVisiting r position delivered rest _ hstack =>
      have hquiet := hg.1
      simp [Quiet, hstack, Frame.isVisiting] at hquiet
  | unwindExpiring r rest _ hstack =>
      have hnone := hg.2
      simp [expired, hstack, Frame.expired?] at hnone
  | resumeStart a ready _ hstack hready => exact h.resumeStart hstack hready howned
  | resumeReceive r ready _ hstack hready _ => exact (h.resumeReceive hstack hready howned).2
  | fire r _ hstack htimer => exact h.fireTimer hstack howned

/-- In every run of gentle steps: the handle of a receive is scheduled at most once; by the time
the receive is scheduled or resumed exactly one visitor has run; the timer of a receive that
has got that far does nothing but leave the timer queue; and at most one armed timer of an
actor has its flag set, which is so only while its receive is pending or the visitor of that
very receive is running. -/
theorem timed_receive_one_outcome {labels : List (Label M R)} {s : Runtime M R}
    (hrun : run step {} labels = some s) (hgentle : AllSteps step Gentle {} labels) :
    (∀ r, (s.receives r).scheduled ≤ 1 ∧
      ((s.receives r).stage = .scheduled ∨ (s.receives r).stage = .done →
        (s.receives r).outcomes.length = 1)) ∧
    (∀ r t, (s.receives r).stage = .scheduled ∨ (s.receives r).stage = .done →
      s.step (.fire r) = some t → t = { s with timers := s.timers.erase r }) ∧
    (∀ r r', (s.receives r).active = some true → (s.receives r').active = some true →
      (s.receives r).actor = (s.receives r').actor → r = r') ∧
    ∀ r, (s.receives r).active = some true →
      (s.actors (s.receives r).actor).pending = some r ∨
        ∃ position, Frame.visiting r position true ∈ s.stack := by
  have h : Settled s := invariant (fun s l t hs hg ht => hs.step hg ht) settled_empty hgentle hrun
  refine ⟨fun r => ⟨?_, fun hst => ((h.regular r).late hst).2⟩, fun r t hst ht => ?_,
    fun r r' hr hr' heq => ?_, fun r hr => ?_⟩
  · by_cases hst : (s.receives r).stage = .scheduled ∨ (s.receives r).stage = .done
    · exact ((h.regular r).late hst).1
    · rw [not_or] at hst
      exact ((h.regular r).early hst.1 hst.2).1.le.trans (Nat.zero_le _)
  · have hactive : (s.receives r).active ≠ some true := by
      intro hact
      rcases (h.regular r).active hact with h' | h' <;> rcases hst with hst | hst <;>
        rw [h'] at hst <;> cases hst
    simp only [Runtime.step] at ht
    split at ht
    · split at ht
      · rw [fireTimer_of_inactive hactive] at ht
        exact (Option.some.inj ht).symm
      · cases ht
    · cases ht
  · have hsusp : ∀ r, (s.receives r).active = some true →
        (s.receives r).stage.suspended = true := by
      intro r hr
      rcases (h.regular r).active hr with hst | hst <;> rw [hst] <;> rfl
    exact h.unique r r' (hsusp r hr) (hsusp r' hr') heq
  · rcases (h.regular r).active hr with hst | hst
    · exact Or.inl ((h.fits r).pending.mpr (Or.inl hst))
    · exact Or.inr ((h.fits r).delivering.mpr hst)

/-- An actor lets one receive time out, and its next one is ended by a message; its timer then
fires to no effect. -/
def timeoutThenMessage : List (Label ℕ ℕ) :=
  [.spawn 0 0, .resume, .receive [fun _ => true] true, .fire 0, .timeoutReturn 1, .resume,
    .receive [fun _ => true] true, .send 1 7, .visitorReturn 2, .fire 1, .resume]

/-- The receive that the message has ended is done, with that one outcome. -/
theorem timed_receive_one_outcome_timeoutThenMessage :
    run step {} timeoutThenMessage = some (reached step {} timeoutThenMessage) ∧
      ((reached step {} timeoutThenMessage).receives 1).stage = .done ∧
      ((reached step {} timeoutThenMessage).receives 1).outcomes.length = 1 :=
  have hrun := run_eq_reached (by decide +kernel)
  have hdone : ((reached step {} timeoutThenMessage).receives 1).stage = .done := by
    decide +kernel
  ⟨hrun, hdone, ((timed_receive_one_outcome hrun (by decide +kernel)).1 1).2 (Or.inr hdone)⟩

end Runtime

end Agner
