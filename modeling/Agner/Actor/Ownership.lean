import Agner.Actor.Runtime

/-!
Messages on a single-threaded scheduler: where each one is, whom it wakes, and in which order
messages are consumed.

* `Searching`: a visitor of the actor is running on its mailbox.
* `Quiet`: the condition on steps. Message visitors return normally, and nothing is added to a
  mailbox that is being searched.
* `Owned`: the invariant of the runs all of whose steps are quiet.
* `messages_owned`: in every state of such a run each message enqueued to an actor is in its
  mailbox or was consumed by one receive, a pending receive accepts no queued message, and a
  receive consumes the oldest message it accepts.
-/

namespace Agner

open Runs

/-- The receive whose visitor the frame runs. -/
def Frame.visited? : Frame → Option ℕ
  | .visiting r _ _ => some r
  | _ => none

namespace Runtime

variable {M R : Type} {m : Message M}

/-- The receives whose message visitors are running, innermost first. -/
def visited (s : Runtime M R) : List ℕ := s.stack.filterMap Frame.visited?

/-- A visitor of the actor is running on its mailbox. -/
def Searching (s : Runtime M R) (a : ActorRef) : Prop :=
  ∃ r ∈ s.visited, (s.receives r).actor = a

instance (s : Runtime M R) (a : ActorRef) : Decidable (s.Searching a) :=
  inferInstanceAs (Decidable (∃ r ∈ s.visited, (s.receives r).actor = a))

/-- Message visitors return normally, and no mailbox grows while it is being searched. -/
def Quiet (s : Runtime M R) : Label M R → Prop
  | .send target _ => s.registered target = true → ¬ s.Searching target
  | .stop target _ => s.registered target = true → ¬ s.Searching target
  | .unwind => s.stack.head?.any Frame.isVisiting = false
  | _ => True

instance (s : Runtime M R) : ∀ l : Label M R, Decidable (s.Quiet l)
  | .send target _ =>
      inferInstanceAs (Decidable (s.registered target = true → ¬ s.Searching target))
  | .stop target _ =>
      inferInstanceAs (Decidable (s.registered target = true → ¬ s.Searching target))
  | .unwind => inferInstanceAs (Decidable (s.stack.head?.any Frame.isVisiting = false))
  | .spawn .. | .link .. | .monitor .. | .receive .. | .visitorReturn _ | .timeoutReturn _
  | .finish | .signal | .throw | .catch | .resume | .fire _ => isTrue trivial

/-- The invariant. -/
structure Owned (s : Runtime M R) : Prop where
  /-- Only visitors run on top of other code. -/
  base : s.stack.Pairwise fun f _ => f.isVisiting = true
  known : ∀ r ∈ s.visited, r < s.nextReceive
  searched : (s.visited.map fun r => (s.receives r).actor).Nodup
  matched : ∀ r position delivered, Frame.visiting r position delivered ∈ s.stack →
    tryMatchMailbox (s.receives r).visitors (s.actors (s.receives r).actor).mailbox =
      some position
  pending : ∀ a r, (s.actors a).pending = some r → r < s.nextReceive ∧
    (s.receives r).actor = a ∧
    tryMatchMailbox (s.receives r).visitors (s.actors a).mailbox = none
  perm : ∀ a, ((s.actors a).mailbox ++ (s.actors a).consumed.map Prod.fst).Perm
    (s.actors a).enqueued
  order : ∀ a, (s.actors a).mailbox.Sublist (s.actors a).enqueued
  stamps : ∀ a, (s.actors a).enqueued.map Envelope.stamp =
    List.range (s.actors a).enqueued.length
  outcome : ∀ a e r, (e, r) ∈ (s.actors a).consumed → r < s.nextReceive ∧
    (s.receives r).actor = a ∧ ∃ visitor, Outcome.message e visitor ∈ (s.receives r).outcomes

@[simp] lemma mem_visited {s : Runtime M R} {r : ℕ} :
    r ∈ s.visited ↔ ∃ position delivered, Frame.visiting r position delivered ∈ s.stack := by
  rw [visited, List.mem_filterMap]
  constructor
  · rintro ⟨f, hf, hr⟩
    cases f with
    | visiting r' p d =>
        obtain rfl : r' = r := Option.some.inj hr
        exact ⟨p, d, hf⟩
    | _ => cases hr
  · rintro ⟨p, d, hf⟩
    exact ⟨_, hf, rfl⟩

lemma owned_empty : Owned ({} : Runtime M R) := by
  constructor <;> simp [visited]

/-! ### Steps that leave mailboxes alone -/

/-- The parts of an actor that the invariant speaks of. -/
def SameMail (x y : ActorState M) : Prop :=
  x.mailbox = y.mailbox ∧ x.enqueued = y.enqueued ∧ x.consumed = y.consumed

/-- Frames are popped, receives go on and pending receives are reset. -/
lemma Owned.relax {s t : Runtime M R} (h : Owned s)
    (hmail : ∀ a, SameMail (t.actors a) (s.actors a))
    (hpend : ∀ a r, (t.actors a).pending = some r → (s.actors a).pending = some r)
    (hrecv : ∀ r, (t.receives r).actor = (s.receives r).actor ∧
      (t.receives r).visitors = (s.receives r).visitors ∧
      ∀ o ∈ (s.receives r).outcomes, o ∈ (t.receives r).outcomes)
    (hnext : t.nextReceive = s.nextReceive)
    (hbase : t.stack.Pairwise fun f _ => f.isVisiting = true)
    (hstack : (t.stack.filter Frame.isVisiting).Sublist (s.stack.filter Frame.isVisiting)) :
    Owned t := by
  have hmem : ∀ r p d, Frame.visiting r p d ∈ t.stack → Frame.visiting r p d ∈ s.stack := by
    intro r p d hf
    have := hstack.subset (List.mem_filter.mpr ⟨hf, rfl⟩)
    exact (List.mem_filter.mp this).1
  have hvis : ∀ l : List Frame, l.filterMap Frame.visited? =
      (l.filter Frame.isVisiting).filterMap Frame.visited? := by
    intro l
    induction l with
    | nil => rfl
    | cons f l ih =>
        cases f <;> simp [List.filterMap_cons, List.filter_cons, Frame.visited?,
          Frame.isVisiting, ih]
  have hsub : t.visited.Sublist s.visited := by
    rw [visited, visited, hvis, hvis s.stack]
    exact hstack.filterMap _
  refine ⟨hbase, fun r hr => ?_, ?_, fun r p d hf => ?_, fun a r hr => ?_, fun a => ?_,
    fun a => ?_, fun a => ?_, fun a e r her => ?_⟩
  · rw [hnext]
    exact h.known r (hsub.subset hr)
  · rw [List.map_congr_left fun r _ => (hrecv r).1]
    exact h.searched.sublist (hsub.map _)
  · rw [(hrecv r).1, (hrecv r).2.1, (hmail _).1]
    exact h.matched r p d (hmem r p d hf)
  · obtain ⟨hlt, hact, hnone⟩ := h.pending a r (hpend a r hr)
    rw [hnext, (hrecv r).1, (hrecv r).2.1, (hmail a).1]
    exact ⟨hlt, hact, hnone⟩
  · rw [(hmail a).1, (hmail a).2.1, (hmail a).2.2]
    exact h.perm a
  · rw [(hmail a).1, (hmail a).2.1]
    exact h.order a
  · rw [(hmail a).2.1]
    exact h.stamps a
  · rw [(hmail a).2.2] at her
    obtain ⟨hlt, hact, v, hv⟩ := h.outcome a e r her
    rw [hnext, (hrecv r).1]
    exact ⟨hlt, hact, v, (hrecv r).2.2 _ hv⟩

/-! ### Messages arrive -/

lemma Owned.push {s : Runtime M R} (h : Owned s) {a : ActorRef} (hq : ¬ s.Searching a)
    (hp : (s.actors a).pending = none ∨ ∃ r, (s.actors a).pending = some r ∧
      tryMatchMailbox (s.receives r).visitors
        ((s.pushMessage a m).actors a).mailbox = none) : Owned (s.pushMessage a m) := by
  have hother : ∀ r ∈ s.visited, (s.receives r).actor ≠ a := fun r hr heq => hq ⟨r, hr, heq⟩
  refine ⟨h.base, h.known, h.searched, fun r p d hf => ?_, fun x r hr => ?_, fun x => ?_,
    fun x => ?_, fun x => ?_, fun x e r her => ?_⟩
  · have hne : (s.receives r).actor ≠ a := hother r (mem_visited.mpr ⟨p, d, hf⟩)
    simp only [pushMessage, updateActor_actors, updateActor_receives, if_neg hne]
    exact h.matched r p d hf
  · by_cases hx : x = a
    · subst hx
      have hr' : (s.actors x).pending = some r := by simpa [pushMessage] using hr
      obtain ⟨hlt, hact, -⟩ := h.pending x r hr'
      rcases hp with hnone | ⟨r', hsome, hmatch⟩
      · rw [hnone] at hr'
        cases hr'
      · rw [hr', Option.some.injEq] at hsome
        exact ⟨hlt, hact, hsome ▸ hmatch⟩
    · simp only [pushMessage, updateActor_actors, if_neg hx] at hr ⊢
      exact h.pending x r hr
  · by_cases hx : x = a
    · subst hx
      simp only [pushMessage, updateActor_actors, if_true]
      refine (List.perm_append_right_iff _).mpr (h.perm x) |> List.Perm.trans ?_
      rw [List.append_assoc, List.append_assoc]
      exact List.perm_append_comm.append_left _
    · simp only [pushMessage, updateActor_actors, if_neg hx]
      exact h.perm x
  · by_cases hx : x = a
    · subst hx
      simp only [pushMessage, updateActor_actors, if_true]
      exact (h.order x).append (List.Sublist.refl _)
    · simp only [pushMessage, updateActor_actors, if_neg hx]
      exact h.order x
  · by_cases hx : x = a
    · subst hx
      simp only [pushMessage, updateActor_actors, if_true, List.map_append, h.stamps x,
        List.length_append, List.length_singleton, List.range_succ]
      rfl
    · simp only [pushMessage, updateActor_actors, if_neg hx]
      exact h.stamps x
  · refine h.outcome x e r ?_
    simp only [pushMessage, updateActor_actors] at her
    split at her
    · rename_i hx
      rw [hx]
      exact her
    · exact her

/-- A visitor starts running on the message that has been found. -/
lemma Owned.visit {s : Runtime M R} (h : Owned s) {r position : ℕ} (delivered : Bool)
    (hlt : r < s.nextReceive) (hq : ¬ s.Searching (s.receives r).actor)
    (hmatch : tryMatchMailbox (s.receives r).visitors (s.actors (s.receives r).actor).mailbox =
      some position) :
    Owned ({ s with stack := .visiting r position delivered :: s.stack } : Runtime M R) := by
  have hvis : ({ s with stack := .visiting r position delivered :: s.stack } :
      Runtime M R).visited = r :: s.visited := by
    simp [visited, Frame.visited?]
  refine ⟨List.pairwise_cons.mpr ⟨fun _ _ => rfl, h.base⟩, fun r' hr' => ?_, ?_,
    fun r' p d hf => ?_, h.pending, h.perm, h.order, h.stamps, h.outcome⟩
  · rw [hvis] at hr'
    rcases List.mem_cons.mp hr' with rfl | hr'
    · exact hlt
    · exact h.known r' hr'
  · rw [hvis, List.map_cons, List.nodup_cons]
    refine ⟨fun hmem => ?_, h.searched⟩
    obtain ⟨r', hr', heq⟩ := List.mem_map.mp hmem
    exact hq ⟨r', hr', heq⟩
  · rcases List.mem_cons.mp hf with heq | hf
    · cases heq
      exact hmatch
    · exact h.matched r' p d hf

/-- A message is enqueued, and the pending receive runs its visitor if it accepts it. -/
lemma Owned.enqueue {s : Runtime M R} (h : Owned s) {a : ActorRef} (hq : ¬ s.Searching a)
    (m : Message M) : Owned (s.enqueueMessage a m) := by
  rw [enqueueMessage, notifyWaiterLocked]
  have hpend : ((s.pushMessage a m).actors a).pending = (s.actors a).pending := by
    simp [pushMessage]
  rw [hpend]
  cases hp : (s.actors a).pending with
  | none => exact h.push hq (Or.inl hp)
  | some r =>
      simp only
      obtain ⟨hlt, hact, -⟩ := h.pending a r hp
      split
      · rename_i hnone
        exact h.push hq (Or.inr ⟨r, hp, hnone⟩)
      · rename_i position hsome
        -- `pending_` is reset first, so that the message arrives at an actor without a waiter
        have hreset : Owned (s.updateActor a fun x => { x with pending := none }) := by
          refine h.relax (fun x => ?_) (fun x r' hr' => ?_) (fun _ => ⟨rfl, rfl, fun _ => id⟩) rfl
            h.base (List.Sublist.refl _)
          · by_cases hx : x = a <;> simp [SameMail, hx]
          · by_cases hx : x = a
            · simp [hx] at hr'
            · simpa [hx] using hr'
        have hpush := hreset.push (m := m) hq (Or.inl (by simp))
        set u := (s.updateActor a fun x => { x with pending := none }).pushMessage a m with hu
        have hmail : ∀ x, u.actors x = { (s.pushMessage a m).actors x with
            pending := if x = a then none else ((s.pushMessage a m).actors x).pending } := by
          intro x
          by_cases hx : x = a <;> simp [hu, pushMessage, hx]
        have hrecv : u.receives = s.receives := rfl
        have hmatch : tryMatchMailbox (u.receives r).visitors
            (u.actors (u.receives r).actor).mailbox = some position := by
          rw [hrecv, hact, hmail]
          exact hsome
        have hvisit := hpush.visit true hlt (by rw [hrecv, hact]; exact hq) hmatch
        refine hvisit.relax (fun x => ?_) (fun x r' hr' => ?_) (fun r' => ?_) rfl hvisit.base
          (List.Sublist.refl _)
        · by_cases hx : x = a <;> simp [SameMail, hmail, hx]
        · by_cases hx : x = a
          · simp [hx] at hr'
          · simpa [hmail, hx] using hr'
        · by_cases hr' : r' = r <;> simp [hr', hrecv, pushMessage]

/-! ### Receives begin and end -/

/-- Below a frame that is not a message visitor there is nothing. -/
lemma Owned.rest_eq_nil {s : Runtime M R} (h : Owned s) {f : Frame} {rest : List Frame}
    (hstack : s.stack = f :: rest) (hf : f.isVisiting = false) : rest = [] := by
  have hbase := h.base
  rw [hstack, List.pairwise_cons] at hbase
  cases rest with
  | nil => rfl
  | cons g rest =>
      have := hbase.1 g (by simp)
      rw [hf] at this
      cases this

lemma Owned.newReceive {s : Runtime M R} (h : Owned s) (a : ActorRef)
    (visitors : List (Visitor M)) (timed : Bool) : Owned (s.newReceive a visitors timed) := by
  have hsame : ∀ r, r < s.nextReceive →
      (s.newReceive a visitors timed).receives r = s.receives r :=
    fun r hr => Function.update_of_ne hr.ne _ _
  refine ⟨h.base, fun r hr => (h.known r hr).trans (Nat.lt_succ_self _), ?_,
    fun r p d hf => ?_, fun x r hr => ?_, h.perm, h.order, h.stamps, fun x e r her => ?_⟩
  · have hmap : (s.newReceive a visitors timed).visited.map
        (fun r => ((s.newReceive a visitors timed).receives r).actor) =
        s.visited.map fun r => (s.receives r).actor :=
      List.map_congr_left fun r hr => by rw [hsame r (h.known r hr)]
    rw [hmap]
    exact h.searched
  · rw [hsame r (h.known r (mem_visited.mpr ⟨p, d, hf⟩))]
    exact h.matched r p d hf
  · obtain ⟨hlt, hact, hnone⟩ := h.pending x r hr
    rw [hsame r hlt]
    exact ⟨hlt.trans (Nat.lt_succ_self _), hact, hnone⟩
  · obtain ⟨hlt, hact, hv⟩ := h.outcome x e r her
    rw [hsame r hlt]
    exact ⟨hlt.trans (Nat.lt_succ_self _), hact, hv⟩

/-- A receive that accepts no queued message becomes pending. -/
lemma Owned.suspend {s : Runtime M R} (h : Owned s) {r : ℕ} (hlt : r < s.nextReceive)
    (hnone : tryMatchMailbox (s.receives r).visitors (s.actors (s.receives r).actor).mailbox =
      none) : Owned (s.awaitSuspend r) := by
  have hset : Owned (s.updateActor (s.receives r).actor fun x => { x with pending := some r }) := by
    have hmail : ∀ x, SameMail ((s.updateActor (s.receives r).actor
        fun x => { x with pending := some r }).actors x) (s.actors x) := by
      intro x
      by_cases hx : x = (s.receives r).actor <;> simp [SameMail, hx]
    refine ⟨h.base, h.known, h.searched, fun r' p d hf => ?_, fun x r' hr' => ?_, fun x => ?_,
      fun x => ?_, fun x => ?_, fun x e r' her => ?_⟩
    · rw [(hmail _).1]
      exact h.matched r' p d hf
    · rw [(hmail x).1]
      by_cases hx : x = (s.receives r).actor
      · obtain rfl : r = r' := by simpa [hx] using hr'
        exact ⟨hlt, hx.symm, hx ▸ hnone⟩
      · exact h.pending x r' (by simpa [hx] using hr')
    · rw [(hmail x).1, (hmail x).2.1, (hmail x).2.2]
      exact h.perm x
    · rw [(hmail x).1, (hmail x).2.1]
      exact h.order x
    · rw [(hmail x).2.1]
      exact h.stamps x
    · rw [(hmail x).2.2] at her
      exact h.outcome x e r' her
  refine hset.relax (fun _ => ⟨rfl, rfl, rfl⟩) (fun _ _ => id) (fun r' => ?_) rfl hset.base
    (List.Sublist.refl _)
  by_cases hr : r' = r <;> simp [awaitSuspend, hr]

lemma Owned.beginReceive {s : Runtime M R} (h : Owned s) {a : ActorRef} {rest : List Frame}
    (hstack : s.stack = .running a :: rest) (visitors : List (Visitor M)) (timed : Bool) :
    Owned (s.beginReceive a rest visitors timed) := by
  have hnew := h.newReceive a visitors timed
  have hself : (s.newReceive a visitors timed).receives s.nextReceive =
      { actor := a, visitors := visitors, timed := timed, stage := .matching } :=
    Function.update_self _ _ _
  have hrest : rest = [] := h.rest_eq_nil hstack rfl
  rw [Runtime.beginReceive]
  split
  · rename_i position hsome
    refine hnew.visit false (Nat.lt_succ_self _) ?_ (by rw [hself]; exact hsome)
    rintro ⟨r, hr, -⟩
    have hvis : (s.newReceive a visitors timed).visited = [] := by
      rw [visited, show (s.newReceive a visitors timed).stack = s.stack from rfl, hstack, hrest]
      rfl
    rw [hvis] at hr
    cases hr
  · rename_i hnone
    have hsusp := hnew.suspend (Nat.lt_succ_self _) (by rw [hself]; exact hnone)
    refine hsusp.relax (fun _ => ⟨rfl, rfl, rfl⟩) (fun _ _ => id)
      (fun _ => ⟨rfl, rfl, fun _ => id⟩) rfl ?_ ?_
    · rw [hrest]
      exact List.Pairwise.nil
    · rw [hrest]
      exact List.nil_sublist _

/-- What a returning visitor has consumed: the oldest message its receive accepts. -/
def Consumes (s t : Runtime M R) (a : ActorRef) : Prop :=
  ∃ r older e newer visitor, (s.receives r).actor = a ∧
    (s.actors a).mailbox = older ++ e :: newer ∧
    tryMatchVisitors (s.receives r).visitors e.body = true ∧
    (∀ e' ∈ older, tryMatchVisitors (s.receives r).visitors e'.body = false) ∧
    (t.actors a).mailbox = older ++ newer ∧
    (t.actors a).consumed = (s.actors a).consumed ++ [(e, r)] ∧
    (t.receives r).outcomes = (s.receives r).outcomes ++ [.message e visitor]

/-- The mailbox has lost nothing and gained at most newer messages. -/
def OnlyAppends (s t : Runtime M R) (a : ActorRef) : Prop :=
  (s.actors a).mailbox <+: (t.actors a).mailbox ∧
    (t.actors a).consumed = (s.actors a).consumed

/-- The message found is still where it was found when the visitor returns. -/
lemma Owned.found {s : Runtime M R} (h : Owned s) {r position : ℕ} {delivered : Bool}
    {rest : List Frame} {e : Envelope M}
    (hstack : s.stack = .visiting r position delivered :: rest)
    (he : (s.actors (s.receives r).actor).mailbox[position]? = some e) :
    ∃ older newer, (s.actors (s.receives r).actor).mailbox = older ++ e :: newer ∧
      (s.actors (s.receives r).actor).mailbox.eraseIdx position = older ++ newer ∧
      tryMatchVisitors (s.receives r).visitors e.body = true ∧
      ∀ e' ∈ older, tryMatchVisitors (s.receives r).visitors e'.body = false := by
  obtain ⟨older, e', newer, hsplit, hlen, hacc, hbefore⟩ :=
    tryMatchMailbox_eq_some (h.matched r position delivered (by rw [hstack]; simp))
  obtain rfl : e' = e := by simpa [hsplit, ← hlen] using he
  refine ⟨older, newer, hsplit, ?_, hacc, hbefore⟩
  rw [hsplit, ← hlen, List.eraseIdx_append_of_length_le le_rfl]
  simp

lemma Owned.complete {s : Runtime M R} (h : Owned s) {r position : ℕ} {delivered : Bool}
    {rest : List Frame} {e : Envelope M} (value : R)
    (hstack : s.stack = .visiting r position delivered :: rest)
    (he : (s.actors (s.receives r).actor).mailbox[position]? = some e) :
    Owned ({ s.completeMatch r position e value with stack := rest } : Runtime M R) := by
  obtain ⟨older, newer, hsplit, herase, -, -⟩ := h.found hstack he
  set a := (s.receives r).actor with ha
  set t : Runtime M R := { s.completeMatch r position e value with stack := rest } with ht
  have hvisited : s.visited = r :: t.visited := by
    rw [visited, hstack]
    rfl
  have hbox : ∀ x, (t.actors x).mailbox = if x = a then older ++ newer
      else (s.actors x).mailbox := by
    intro x
    by_cases hx : x = a <;> simp [ht, completeMatch, ← ha, hx, herase]
  have hcons : ∀ x, (t.actors x).consumed = (s.actors x).consumed ++
      if x = a then [(e, r)] else [] := by
    intro x
    by_cases hx : x = a <;> simp [ht, completeMatch, ← ha, hx]
  have hmeta : ∀ x, (t.actors x).pending = (s.actors x).pending ∧
      (t.actors x).enqueued = (s.actors x).enqueued := by
    intro x
    by_cases hx : x = a <;> simp [ht, completeMatch, ← ha, hx]
  have hrecv : ∀ r', (t.receives r').actor = (s.receives r').actor ∧
      (t.receives r').visitors = (s.receives r').visitors := by
    intro r'
    by_cases hr : r' = r <;> simp [ht, completeMatch, hr]
  have hout : ∀ r' o, o ∈ (s.receives r').outcomes → o ∈ (t.receives r').outcomes := by
    intro r' o ho
    by_cases hr : r' = r
    · subst hr
      simp [ht, completeMatch, ho]
    · simpa [ht, completeMatch, hr] using ho
  have hshort : ∀ x, (t.actors x).mailbox.Sublist (s.actors x).mailbox := by
    intro x
    rw [hbox]
    split
    · rename_i hx
      rw [hx, hsplit]
      exact (List.Sublist.refl older).append (List.sublist_cons_self e newer)
    · exact List.Sublist.refl _
  have hbase := h.base
  rw [hstack, List.pairwise_cons] at hbase
  have hnodup := h.searched
  rw [hvisited, List.map_cons, List.nodup_cons] at hnodup
  refine ⟨hbase.2, fun r' hr' => ?_, ?_, fun r' p d hf => ?_, fun x r' hr' => ?_, fun x => ?_,
    fun x => ?_, fun x => ?_, fun x e' r' her => ?_⟩
  · exact h.known r' (by rw [hvisited]; exact List.mem_cons_of_mem _ hr')
  · rw [List.map_congr_left fun r' _ => (hrecv r').1]
    exact hnodup.2
  · -- the other searches under way are of other mailboxes
    have hne : (s.receives r').actor ≠ a := by
      intro heq
      exact hnodup.1 (List.mem_map.mpr ⟨r', mem_visited.mpr ⟨p, d, hf⟩, heq⟩)
    rw [(hrecv r').1, (hrecv r').2, hbox, if_neg hne]
    exact h.matched r' p d (by rw [hstack]; exact List.mem_cons_of_mem _ hf)
  · rw [(hmeta x).1] at hr'
    obtain ⟨hlt, hact, hnone⟩ := h.pending x r' hr'
    rw [(hrecv r').1, (hrecv r').2]
    exact ⟨hlt, hact, tryMatchMailbox_sublist hnone (hshort x)⟩
  · -- the message that leaves the mailbox is the one that has been consumed
    rw [hbox, hcons, (hmeta x).2]
    refine List.Perm.trans ?_ (h.perm x)
    by_cases hx : x = a
    · simp only [hx, if_true, hsplit, List.map_append, List.map_cons, List.map_nil]
      rw [List.append_assoc, List.append_assoc]
      refine List.Perm.append_left older ?_
      rw [List.cons_append, ← List.append_assoc]
      exact List.perm_append_singleton e _
    · simp [hx]
  · rw [(hmeta x).2]
    exact (hshort x).trans (h.order x)
  · rw [(hmeta x).2]
    exact h.stamps x
  · rw [hcons] at her
    rw [(hrecv r').1]
    rcases List.mem_append.mp her with her | her
    · obtain ⟨hlt, hact, v, hv⟩ := h.outcome x e' r' her
      exact ⟨hlt, hact, v, hout r' _ hv⟩
    · by_cases hx : x = a
      · simp only [hx, if_true, List.mem_singleton, Prod.mk.injEq] at her
        obtain ⟨rfl, rfl⟩ := her
        refine ⟨h.known r' (by rw [hvisited]; simp), hx ▸ ha.symm,
          (s.receives r').visitors.findIdx fun visitor => visitor e'.body, ?_⟩
        simp only [ht, completeMatch, updateReceive_receives, if_true]
        exact List.mem_append_right _ (List.mem_singleton_self _)
      · simp [hx] at her

/-! ### Whole runs -/

/-- Everything a step may do other than to deliver a message or to begin or end a receive. -/
lemma Owned.other {s t : Runtime M R} (h : Owned s)
    (hmail : ∀ a, SameMail (t.actors a) (s.actors a))
    (hpend : ∀ a r, (t.actors a).pending = some r → (s.actors a).pending = some r)
    (hrecv : ∀ r, (t.receives r).actor = (s.receives r).actor ∧
      (t.receives r).visitors = (s.receives r).visitors ∧
      ∀ o ∈ (s.receives r).outcomes, o ∈ (t.receives r).outcomes)
    (hnext : t.nextReceive = s.nextReceive)
    (hbase : t.stack.Pairwise fun f _ => f.isVisiting = true)
    (hstack : (t.stack.filter Frame.isVisiting).Sublist (s.stack.filter Frame.isVisiting)) :
    Owned t ∧ ∀ a, OnlyAppends s t a := by
  refine ⟨h.relax hmail hpend hrecv hnext hbase hstack, fun a => ⟨?_, (hmail a).2.2⟩⟩
  rw [(hmail a).1]

lemma onlyAppends_enqueueMessage (s : Runtime M R) (a : ActorRef) (m : Message M) (x : ActorRef) :
    OnlyAppends s (s.enqueueMessage a m) x := by
  have hpush : OnlyAppends s (s.pushMessage a m) x := by
    by_cases hx : x = a
    · subst hx
      simp [OnlyAppends, pushMessage]
    · simp [OnlyAppends, pushMessage, hx]
  rw [enqueueMessage, notifyWaiterLocked]
  split
  · exact hpush
  · split
    · exact hpush
    · refine ⟨hpush.1.trans ?_, Eq.trans ?_ hpush.2⟩
      · by_cases hx : x = a <;> simp [hx]
      · by_cases hx : x = a <;> simp [hx]

lemma Owned.send {s : Runtime M R} (h : Owned s) {a : ActorRef}
    (hq : s.registered a = true → ¬ s.Searching a) (m : Message M) :
    Owned (s.send a m) ∧ ∀ x, OnlyAppends s (s.send a m) x := by
  rw [Runtime.send]
  split
  · rename_i hreg
    exact ⟨h.enqueue (hq hreg) m, onlyAppends_enqueueMessage s a m⟩
  · exact ⟨h, fun x => ⟨List.prefix_rfl, rfl⟩⟩

/-- Only frames, the ready queue, timers, the registry and stages change. -/
lemma Owned.control {s t : Runtime M R} (h : Owned s) (hactors : t.actors = s.actors)
    (hrecv : ∀ r, (t.receives r).actor = (s.receives r).actor ∧
      (t.receives r).visitors = (s.receives r).visitors ∧
      ∀ o ∈ (s.receives r).outcomes, o ∈ (t.receives r).outcomes)
    (hnext : t.nextReceive = s.nextReceive)
    (hbase : t.stack.Pairwise fun f _ => f.isVisiting = true)
    (hstack : (t.stack.filter Frame.isVisiting).Sublist (s.stack.filter Frame.isVisiting)) :
    Owned t ∧ ∀ a, OnlyAppends s t a :=
  h.other (fun a => by rw [hactors]; exact ⟨rfl, rfl, rfl⟩)
    (fun a r hr => by rwa [hactors] at hr) hrecv hnext hbase hstack

lemma Owned.schedule {s : Runtime M R} (h : Owned s) (r : ℕ) : Owned (s.schedule r) := by
  refine (h.control (t := s.schedule r) rfl (fun r' => ?_) rfl h.base (List.Sublist.refl _)).1
  by_cases hr : r' = r <;> simp [Runtime.schedule, hr]

lemma Owned.setDone {s : Runtime M R} (h : Owned s) (r : ℕ) :
    Owned (s.updateReceive r fun w => { w with stage := .done }) := by
  refine (h.control (t := s.updateReceive r _) rfl (fun r' => ?_) rfl h.base
    (List.Sublist.refl _)).1
  by_cases hr : r' = r <;> simp [hr]

/-- `exit_reason_` is set. -/
lemma Owned.setExitReason {s : Runtime M R} (h : Owned s) (a : ActorRef) (reason : ExitReason) :
    Owned (s.updateActor a fun x => { x with exitReason := some reason }) ∧
      ∀ x, OnlyAppends s (s.updateActor a fun x => { x with exitReason := some reason }) x := by
  refine h.other (fun x => ?_) (fun x r hr => ?_) (fun _ => ⟨rfl, rfl, fun _ => id⟩) rfl h.base
    (List.Sublist.refl _)
  · by_cases hx : x = a <;> simp [SameMail, hx]
  · by_cases hx : x = a <;> simpa [hx] using hr

/-- `notify_exit` goes on to its next signal. -/
lemma Owned.setExiting {s : Runtime M R} (h : Owned s) (a : ActorRef)
    (signals : List (ActorRef × Signal)) :
    Owned ({ s with stack := [.exiting a signals] } : Runtime M R) ∧
      ∀ x, OnlyAppends s ({ s with stack := [.exiting a signals] } : Runtime M R) x :=
  h.control rfl (fun _ => ⟨rfl, rfl, fun _ => id⟩) rfl (by simp) (by simp [Frame.isVisiting])

/-- A step that consumes nothing. -/
lemma Owned.left {s t : Runtime M R} (h : Owned t ∧ ∀ a, OnlyAppends s t a) :
    Owned t ∧ ∀ a, OnlyAppends s t a ∨ Consumes s t a :=
  ⟨h.1, fun a => Or.inl (h.2 a)⟩

lemma onlyAppends_awaitSuspend (s : Runtime M R) (r : ℕ) (x : ActorRef) :
    OnlyAppends s (s.awaitSuspend r) x := by
  by_cases hx : x = (s.receives r).actor <;> simp [OnlyAppends, awaitSuspend, hx]

/-- One quiet step: what it keeps, and what it does to the mailboxes. -/
lemma Owned.step {s t : Runtime M R} {l : Label M R} (h : Owned s) (hq : s.Quiet l)
    (hstep : s.step l = some t) :
    Owned t ∧ ∀ a, OnlyAppends s t a ∨ Consumes s t a := by
  have hsame : ∀ r, (s.receives r).actor = (s.receives r).actor ∧
      (s.receives r).visitors = (s.receives r).visitors ∧
      ∀ o ∈ (s.receives r).outcomes, o ∈ (s.receives r).outcomes :=
    fun _ => ⟨rfl, rfl, fun _ => id⟩
  cases moves_of_step hstep with
  | spawn | link | linkRaises | monitor | monitorRaises | stopRaises | throw | «catch» =>
      exact Owned.left (h.control rfl hsame rfl h.base (List.Sublist.refl _))
  | send target m => exact Owned.left (h.send hq _)
  | stop target reason _ hreg =>
      have hset := h.setExitReason target reason
      refine Owned.left ⟨hset.1.enqueue (hq hreg) _, fun a => ?_⟩
      have hmore := onlyAppends_enqueueMessage
        (s.updateActor target fun x => { x with exitReason := some reason }) target
        (.signal (.exit target reason)) a
      exact ⟨(hset.2 a).1.trans hmore.1, hmore.2.trans (hset.2 a).2⟩
  | receive visitors timed a rest _ hstack =>
      refine Owned.left ⟨h.beginReceive hstack visitors timed, fun x => ?_⟩
      rw [Runtime.beginReceive]
      split
      · exact ⟨List.prefix_rfl, rfl⟩
      · exact onlyAppends_awaitSuspend (s.newReceive a visitors timed) s.nextReceive x
  | visitorReturn value r position delivered rest e _ hstack he =>
      have hdone := h.complete value hstack he
      obtain ⟨older, newer, hsplit, herase, hacc, hbefore⟩ := h.found hstack he
      have hchange : ∀ u : Runtime M R, u.actors = (s.completeMatch r position e value).actors →
          (u.receives r).outcomes = ((s.completeMatch r position e value).receives r).outcomes →
          ∀ a, OnlyAppends s u a ∨ Consumes s u a := by
        intro u hactors hrecv a
        by_cases ha : a = (s.receives r).actor
        · subst ha
          refine Or.inr ⟨r, older, e, newer, (s.receives r).visitors.findIdx
            fun visitor => visitor e.body, rfl, hsplit, hacc, hbefore, ?_, ?_, ?_⟩
          · simp [hactors, completeMatch, herase]
          · simp [hactors, completeMatch]
          · simp [hrecv, completeMatch]
        · refine Or.inl ⟨?_, ?_⟩ <;> simp [hactors, completeMatch, ha]
      rw [visitorReturned]
      split
      · exact ⟨hdone.schedule r, hchange _ rfl (by simp [Runtime.schedule])⟩
      · exact ⟨hdone.setDone r, hchange _ rfl (by simp)⟩
  | timeoutReturn value r rest _ hstack =>
      have hrest := h.rest_eq_nil hstack rfl
      refine Owned.left (h.other (fun a => ?_) (fun a r' hr' => ?_) (fun r' => ?_) rfl ?_ ?_)
      · by_cases ha : a = (s.receives r).actor <;>
          simp [SameMail, timeoutReturned, Runtime.schedule, ha]
      · by_cases ha : a = (s.receives r).actor
        · simp [timeoutReturned, Runtime.schedule, ha] at hr'
        · simpa [timeoutReturned, Runtime.schedule, ha] using hr'
      · by_cases hr : r' = r
        · simp [timeoutReturned, Runtime.schedule, hr]
          exact fun o ho => Or.inl ho
        · simp [timeoutReturned, Runtime.schedule, hr]
      · simp [timeoutReturned, Runtime.schedule, hrest]
      · simp [timeoutReturned, Runtime.schedule, hrest]
  | finish a rest _ hstack | unwindRunning a rest _ hstack =>
      have hrest := h.rest_eq_nil hstack rfl
      exact Owned.left (h.control rfl hsame rfl (by simp [beginExit, hrest])
        (by simp [beginExit, hrest, Frame.isVisiting]))
  | signalled a rest _ hstack | unwindExiting a signals rest _ hstack
  | unwindExpiring r rest _ hstack =>
      have hrest := h.rest_eq_nil hstack rfl
      exact Owned.left (h.control rfl hsame rfl (by simp [hrest]) (by simp [hrest]))
  | signal a target sg signals rest _ hstack =>
      have hrest := h.rest_eq_nil hstack rfl
      have hpop := h.setExiting a signals
      rw [hrest]
      -- an actor exits from the bottom of the stack, where no mailbox is being searched
      have hsend := hpop.1.send (a := target) (fun _ hs => by
        obtain ⟨r, hr, -⟩ := hs
        simp [visited, Frame.visited?, List.filterMap_cons] at hr) (.signal sg)
      refine Owned.left ⟨hsend.1, fun x => ?_⟩
      exact ⟨(hpop.2 x).1.trans (hsend.2 x).1, (hsend.2 x).2.trans (hpop.2 x).2⟩
  | unwindVisiting r position delivered rest _ hstack =>
      simp [Quiet, hstack, Frame.isVisiting] at hq
  | resumeStart a ready _ hstack hready =>
      exact Owned.left (h.control rfl hsame rfl (by simp) (by simp [Frame.isVisiting]))
  | resumeReceive r ready _ hstack hready _ =>
      refine Owned.left (h.control rfl (fun r' => ?_) rfl (by simp) (by simp [Frame.isVisiting]))
      by_cases hr : r' = r <;> simp [hr]
  | fire r _ hstack htimer =>
      rw [fireTimer]
      split
      · refine Owned.left (h.control rfl (fun r' => ?_) rfl (by simp [hstack])
          (by simp [hstack, Frame.isVisiting]))
        by_cases hr : r' = r <;> simp [hr]
      · exact Owned.left (h.control rfl hsame rfl h.base (List.Sublist.refl _))

/-- A message enqueued to an actor is in its mailbox, or has been consumed by one receive. -/
def InOnePlace (x : ActorState M) (e : Envelope M) : Prop :=
  (e ∈ x.mailbox ∧ ∀ r, (e, r) ∉ x.consumed) ∨
    (e ∉ x.mailbox ∧ ∃ r, (e, r) ∈ x.consumed ∧ ∀ r', (e, r') ∈ x.consumed → r' = r)

lemma Owned.nodup_enqueued {s : Runtime M R} (h : Owned s) (a : ActorRef) :
    (s.actors a).enqueued.Nodup := by
  refine List.Nodup.of_map Envelope.stamp ?_
  rw [h.stamps a]
  exact List.nodup_range

lemma Owned.inOnePlace {s : Runtime M R} (h : Owned s) {a : ActorRef} {e : Envelope M}
    (he : e ∈ (s.actors a).enqueued) : InOnePlace (s.actors a) e := by
  have hnodup := (h.perm a).nodup_iff.mpr (h.nodup_enqueued a)
  obtain ⟨-, hcons, hdisj⟩ := List.nodup_append.mp hnodup
  rcases List.mem_append.mp ((h.perm a).mem_iff.mpr he) with hbox | hmap
  · refine Or.inl ⟨hbox, fun r hr => ?_⟩
    exact hdisj e hbox e (List.mem_map.mpr ⟨(e, r), hr, rfl⟩) rfl
  · refine Or.inr ⟨fun hbox => hdisj e hbox e hmap rfl, ?_⟩
    obtain ⟨⟨_, r⟩, hr, rfl⟩ := List.mem_map.mp hmap
    refine ⟨r, hr, fun r' hr' => ?_⟩
    exact congrArg Prod.snd (List.inj_on_of_nodup_map hcons hr' hr rfl)

/-- The mailbox is in the order of arrival. -/
lemma Owned.pairwise_stamp {s : Runtime M R} (h : Owned s) (a : ActorRef) :
    (s.actors a).mailbox.Pairwise fun e e' => e.stamp < e'.stamp := by
  refine List.Pairwise.sublist (h.order a) (List.pairwise_map.mp ?_)
  rw [h.stamps a]
  exact List.pairwise_lt_range

/-- In every run of quiet steps, each message enqueued to an actor is in exactly one place; a
pending receive accepts no message of its mailbox; mailboxes are in the order of arrival, and
a step that takes a message out of one takes the oldest that the receive accepts. -/
theorem messages_owned {labels : List (Label M R)} {s : Runtime M R}
    (hrun : run step {} labels = some s) (hquiet : AllSteps step Quiet {} labels) :
    (∀ a, (∀ e ∈ (s.actors a).enqueued, InOnePlace (s.actors a) e) ∧
      (s.actors a).enqueued.Nodup ∧
      ((s.actors a).mailbox ++ (s.actors a).consumed.map Prod.fst).Perm (s.actors a).enqueued ∧
      ∀ e r, (e, r) ∈ (s.actors a).consumed → (s.receives r).actor = a ∧
        ∃ visitor, Outcome.message e visitor ∈ (s.receives r).outcomes) ∧
    (∀ a r, (s.actors a).pending = some r →
      ∀ e ∈ (s.actors a).mailbox, tryMatchVisitors (s.receives r).visitors e.body = false) ∧
    ∀ a, ((s.actors a).mailbox.Pairwise fun e e' => e.stamp < e'.stamp) ∧
      ∀ l t, s.Quiet l → s.step l = some t → OnlyAppends s t a ∨ Consumes s t a := by
  have h : Owned s := invariant (fun s l t hs hq ht => (hs.step hq ht).1) owned_empty hquiet hrun
  refine ⟨fun a => ⟨fun e he => h.inOnePlace he, h.nodup_enqueued a, h.perm a, fun e r her => ?_⟩,
    fun a r hr => ?_, fun a => ⟨h.pairwise_stamp a, fun l t hq ht => (h.step hq ht).2 a⟩⟩
  · exact (h.outcome a e r her).2
  · exact tryMatchMailbox_eq_none.mp (h.pending a r hr).2.2

/-- One actor waits for a signal with a timeout; a user message is left in its mailbox, and a
stop is consumed. -/
def waitForStop : List (Label ℕ ℕ) :=
  [.spawn 0 0, .resume,
    .receive [fun m => match m with | .signal _ => true | .user _ => false] true,
    .send 1 7, .stop 1 .stopped, .visitorReturn 5, .resume]

/-- The message that the pending receive does not accept stays in the mailbox. -/
theorem messages_owned_waitForStop :
    run step {} waitForStop = some (reached step {} waitForStop) ∧
      ((reached step {} waitForStop).actors 1).mailbox.map Envelope.stamp = [0] ∧
      ∀ e ∈ ((reached step {} waitForStop).actors 1).enqueued,
        InOnePlace ((reached step {} waitForStop).actors 1) e :=
  have hrun := run_eq_reached (by decide +kernel)
  ⟨hrun, by decide +kernel, ((messages_owned hrun (by decide +kernel)).1 1).1⟩

end Runtime

end Agner
