import Sweater.Libuv.Parties

namespace Sweater
namespace Libuv

/-!
# Claims on chunks

The queuer and the steal-back pass claim chunks with the lock of the node.  At
most one of them has it, and what the states say of a chunk then agrees with
what libuv knows of its request.  Only between `uv_queue_work` and the write of
the state, which is under the same lock, the two differ.
-/

/-- `uv_queue_work` has succeeded. -/
def Request.accepted : Request -> Bool
  | idle => false
  | refused => false
  | queued => true
  | started => true
  | done => true
  | reported => true

/-- The request runs on a worker, or may still do so. -/
def Request.unfinished : Request -> Bool
  | idle => false
  | refused => false
  | queued => true
  | started => true
  | done => false
  | reported => false

namespace Point

/-- The thread has the lock. -/
def inCritical : Point -> Bool
  | examine _ _ => true
  | unlock _ _ _ => true
  | addRef _ => true
  | submit _ => true
  | mark _ => true
  | takeBack _ => true
  | markInline _ => true
  | _ => false

/-- The queuer has found the chunk pending. -/
def claiming : Point -> Bool
  | addRef _ => true
  | submit _ => true
  | mark _ => true
  | takeBack _ => true
  | markInline _ => true
  | _ => false

/-- Between `uv_queue_work` and the write of the state. -/
def submits (index : Nat) : Point -> Bool
  | mark other => decide (other = index)
  | takeBack other => decide (other = index)
  | markInline other => decide (other = index)
  | _ => false

/-- A worker runs the request. -/
def inPool (index : Nat) : Point -> Bool
  | executing .pool other _ => decide (other = index)
  | finish other => decide (other = index)
  | _ => false

/-- What the queuer knows of the chunk that it queues. -/
def Claims (node : Node) : Point -> Prop
  | addRef index => node.chunkState index = .pending ∧ node.request index = .idle
  | submit index => node.chunkState index = .pending ∧ node.request index = .idle
  | mark index => node.chunkState index = .pending ∧ (node.request index).accepted = true
  | takeBack index => node.chunkState index = .pending ∧ node.request index = .refused
  | markInline index => node.chunkState index = .pending ∧ node.request index = .refused
  | _ => True

theorem claiming_uniform : Uniform claiming := ⟨fun _ => rfl, fun _ => rfl⟩

theorem inCritical_uniform : Uniform inCritical := ⟨fun _ => rfl, fun _ => rfl⟩

theorem inPool_uniform (index : Nat) : Uniform (inPool index) := ⟨fun _ => rfl, fun _ => rfl⟩

variable {point : Point} {index : Nat}

theorem inCritical_of_claiming (claiming : point.claiming = true) : point.inCritical = true := by
  cases point <;> first | rfl | exact claiming

theorem claims_of_not_claiming {node : Node} (without : point.claiming = false) : point.Claims node := by
  cases point <;> trivial

theorem submits_of_not_claiming (without : point.claiming = false) : point.submits index = false := by
  cases point <;> first | rfl | cases without

end Point

/-- The state of a chunk agrees with its request. -/
structure Node.Settled (node : Node) (index : Nat) : Prop where
  pending : node.chunkState index = .pending -> node.request index = .idle
  queued : node.chunkState index = .queued -> (node.request index).accepted = true
  doneInline : node.chunkState index = .doneInline -> (node.request index).unfinished = false

theorem Node.settled_of_doneInline {node : Node} {index : Nat} (doneInline : node.chunkState index = .doneInline)
    (finished : (node.request index).unfinished = false) : node.Settled index := by
  constructor
  · intro impossible
    rw [doneInline] at impossible
    cases impossible
  · intro impossible
    rw [doneInline] at impossible
    cases impossible
  · exact fun _ => finished

/-- The lock keeps the states and the requests together. -/
structure Locked (node : Node) (points : Multiset Point) : Prop where
  exclusive : tally Point.inCritical points = if node.lock then 1 else 0
  claims : forall point, point ∈ points -> point.Claims node
  settled : forall index, (forall point, point ∈ points -> point.submits index = false) -> node.Settled index
  pool : forall index, tally (Point.inPool index) points = if node.request index = .started then 1 else 0

variable {program : Program} {cancelMayFail onLoop begun : Bool} {node node' : Node} {point next : Point}
  {points gone come : List Point}

/-! ## The lock -/

theorem NodeStep.exclusive (step : NodeStep cancelMayFail onLoop node point node' points)
    (held : point.inCritical = true -> node.lock = true) :
    points.countP Point.inCritical + (if node.lock then 1 else 0) =
      [point].countP Point.inCritical + (if node'.lock then 1 else 0) := by
  cases step with
  | queueHere queuedChunks =>
      rw [List.countP_cons, Point.inCritical_uniform.queue]
      rfl
  | countDown host index =>
      rw [countP_point (Point.inCritical_uniform.resume _ index host)]
      cases host with
      | claimer claimer => cases claimer <;> rfl
      | _ => rfl
  | lock claimer index free =>
      rw [free]
      rfl
  | unlock claimer index runInline =>
      have none : [if runInline then .executing (.claimer claimer) index .running
          else .next node.count index claimer].countP Point.inCritical = 0 := by
        cases runInline with
        | true => rfl
        | false =>
            apply (countP_point (Point.inCritical_uniform.next _ index claimer)).trans
            cases claimer <;> rfl
      rw [none, held rfl]
      rfl
  | _ => rfl

theorem NodeChange.exclusive (change : NodeChange program true node gone node' come)
    (held : forall point, point ∈ gone -> point.inCritical = true -> node.lock = true) :
    come.countP Point.inCritical + (if node.lock then 1 else 0) =
      gone.countP Point.inCritical + (if node'.lock then 1 else 0) := by
  cases change with
  | step onLoop point points step => exact step.exclusive (held point List.mem_cons_self)
  | drain =>
      rw [countP_point (Point.inCritical_uniform.queue _ _)]
      rfl
  | _ => rfl

/-! ## Requests on the workers -/

theorem NodeStep.pool (step : NodeStep cancelMayFail onLoop node point node' points) (claims : point.Claims node)
    (started : forall index, point = .finish index -> node.request index = .started) (index : Nat) :
    points.countP (Point.inPool index) + (if node.request index = .started then 1 else 0) =
      [point].countP (Point.inPool index) + (if node'.request index = .started then 1 else 0) := by
  -- a request that is not started is set to one that is not
  have sets : forall target request, node.request target ≠ .started -> request ≠ .started ->
      (if node.request index = .started then 1 else 0) =
        (if (node.setRequest target request).request index = .started then 1 else 0) := by
    intro target request before after
    by_cases here : index = target
    · rw [here, setRequest_self, if_neg before, if_neg after]
    · rw [setRequest_of_ne node here]
  cases step with
  | queueHere queuedChunks =>
      rw [List.countP_cons, (Point.inPool_uniform index).queue]
      rfl
  | returnSerial other => rfl
  | returnChunk host other =>
      cases host <;> rfl
  | countDown host other =>
      rw [countP_point ((Point.inPool_uniform index).resume _ other host)]
      cases host with
      | claimer claimer => cases claimer <;> rfl
      | _ => rfl
  | finish other =>
      rw [List.countP_nil, List.countP_singleton, Point.inPool]
      by_cases here : index = other
      · rw [here, setRequest_self, started other rfl, decide_eq_true rfl]
        rfl
      · rw [setRequest_of_ne node here, decide_eq_false (Ne.symm here)]
        rfl
  | unlock claimer other runInline =>
      apply congrArg (· + _)
      cases runInline with
      | true => rfl
      | false =>
          apply (countP_point ((Point.inPool_uniform index).next _ other claimer)).trans
          cases claimer <;> rfl
  | cancel other _ queued => exact congrArg (0 + ·) (sets other .done (by rw [queued]; exact nofun) nofun)
  | submit other => exact congrArg (0 + ·) (sets other .queued (by rw [claims.2]; exact nofun) nofun)
  | submitFails other => exact congrArg (0 + ·) (sets other .refused (by rw [claims.2]; exact nofun) nofun)
  | _ => rfl

theorem NodeChange.pool (change : NodeChange program true node gone node' come)
    (claims : forall point, point ∈ gone -> point.Claims node)
    (started : forall index, .finish index ∈ gone -> node.request index = .started) (index : Nat) :
    come.countP (Point.inPool index) + (if node.request index = .started then 1 else 0) =
      gone.countP (Point.inPool index) + (if node'.request index = .started then 1 else 0) := by
  cases change with
  | step onLoop point points step =>
      apply step.pool (claims point List.mem_cons_self)
      intro other same
      exact started other (List.mem_singleton.mpr same.symm)
  | dequeue other queued =>
      rw [List.countP_nil, List.countP_singleton, Point.inPool]
      by_cases here : index = other
      · rw [here, setRequest_self, queued, decide_eq_true rfl]
        rfl
      · rw [setRequest_of_ne node here, decide_eq_false (Ne.symm here)]
        rfl
  | report other done =>
      apply congrArg (0 + ·)
      by_cases here : index = other
      · rw [here, setRequest_self, done]
        rfl
      · rw [setRequest_of_ne node here]
  | drain =>
      rw [countP_point ((Point.inPool_uniform index).queue _ _)]
      rfl
  | _ => rfl

/-! ## Chunks and their requests -/

/-- A thread with the lock goes on with it until it leaves it, and keeps the
states and the requests together. -/
theorem NodeStep.inside (step : NodeStep cancelMayFail onLoop node point node' points)
    (critical : point.inCritical = true) (claims : point.Claims node)
    (settled : forall index, point.submits index = false -> node.Settled index) :
    (forall next, next ∈ points -> next.Claims node') ∧
      forall index, (forall next, next ∈ points -> next.submits index = false) -> node'.Settled index := by
  -- a chunk that the step does not change, and that the thread does not work on, is as before
  have same : forall index, node'.chunkState index = node.chunkState index ->
      node'.request index = node.request index -> point.submits index = false -> node'.Settled index := by
    intro index state request elsewhere
    obtain ⟨pending, queued, doneInline⟩ := settled index elsewhere
    constructor
    · rw [state, request]
      exact pending
    · rw [state, request]
      exact queued
    · rw [state, request]
      exact doneInline
  have only : forall {next : Point}, next.Claims node' -> forall other, other ∈ [next] -> other.Claims node' := by
    intro next holds other member
    rw [List.mem_singleton.mp member]
    exact holds
  cases step with
  | unlock claimer index runInline =>
      constructor
      · apply only
        apply Point.claims_of_not_claiming
        cases runInline with
        | true => rfl
        | false =>
            apply (Point.claiming_uniform.next _ index claimer).trans
            cases claimer <;> rfl
      · intro index _
        exact same index rfl rfl rfl
  | steal index pending =>
      refine ⟨only trivial, fun other _ => ?_⟩
      by_cases here : other = index
      · subst here
        have idle := (settled other rfl).pending pending
        apply Node.settled_of_doneInline (setState_self _ _ _)
        change (node.request other).unfinished = false
        rw [idle]
        rfl
      · exact same other (setState_of_ne node here _) rfl rfl
  | cancel index queued request =>
      refine ⟨only trivial, fun other _ => ?_⟩
      by_cases here : other = index
      · subst here
        apply Node.settled_of_doneInline (setState_self _ _ _)
        change ((node.setRequest other .done).request other).unfinished = false
        rw [setRequest_self]
        rfl
      · exact same other (setState_of_ne _ here _) (setRequest_of_ne node here _) rfl
  | cancelFails index | stealDone index | queueStolen index =>
      exact ⟨only trivial, fun other _ => same other rfl rfl rfl⟩
  | queuePending index pending =>
      exact ⟨only ⟨pending, (settled index rfl).pending pending⟩, fun other _ => same other rfl rfl rfl⟩
  | addRef index => exact ⟨only claims, fun other _ => same other rfl rfl rfl⟩
  | submit index =>
      constructor
      · apply only
        refine ⟨claims.1, ?_⟩
        rw [setRequest_self]
        rfl
      · intro other elsewhere
        have different : index ≠ other := of_decide_eq_false (elsewhere _ List.mem_cons_self)
        exact same other rfl (setRequest_of_ne node different.symm _) rfl
  | submitFails index =>
      constructor
      · apply only
        exact ⟨claims.1, setRequest_self node index .refused⟩
      · intro other elsewhere
        have different : index ≠ other := of_decide_eq_false (elsewhere _ List.mem_cons_self)
        exact same other rfl (setRequest_of_ne node different.symm _) rfl
  | mark index =>
      refine ⟨only trivial, fun other _ => ?_⟩
      by_cases here : other = index
      · subst here
        constructor
        · intro impossible
          rw [setState_self] at impossible
          cases impossible
        · exact fun _ => claims.2
        · intro impossible
          rw [setState_self] at impossible
          cases impossible
      · exact same other (setState_of_ne node here _) rfl (decide_eq_false (Ne.symm here))
  | takeBack index =>
      refine ⟨only claims, fun other elsewhere => ?_⟩
      exact same other rfl rfl (elsewhere (.markInline index) List.mem_cons_self)
  | markInline index =>
      refine ⟨only trivial, fun other _ => ?_⟩
      by_cases here : other = index
      · subst here
        apply Node.settled_of_doneInline (setState_self _ _ _)
        change (node.request other).unfinished = false
        rw [claims.2]
        rfl
      · exact same other (setState_of_ne node here _) rfl (decide_eq_false (Ne.symm here))
  | _ => cases critical

/-- What may happen to a request without the lock. -/
inductive Request.Proceeds : Request -> Request -> Prop
  | none (request : Request) : Proceeds request request
  | dequeued : Proceeds .queued .started
  | finished : Proceeds .started .done
  | reported : Proceeds .done .reported

/-- Without the lock no state is written. -/
structure Outside (node node' : Node) (come : List Point) : Prop where
  chunkState : node'.chunkState = node.chunkState
  request : forall index, (node.request index).Proceeds (node'.request index)
  claiming : forall point, point ∈ come -> point.claiming = false

theorem NodeStep.outside (step : NodeStep cancelMayFail onLoop node point node' points)
    (without : point.inCritical = false)
    (started : forall index, point = .finish index -> node.request index = .started) :
    Outside node node' points := by
  have only : forall {next : Point}, next.claiming = false -> forall other, other ∈ [next] -> other.claiming = false := by
    intro next holds other member
    rw [List.mem_singleton.mp member]
    exact holds
  cases step with
  | queueHere queuedChunks =>
      refine ⟨rfl, fun _ => .none _, ?_⟩
      intro next member
      rcases List.mem_cons.mp member with here | last
      · rw [here]
        exact Point.claiming_uniform.queue _ _
      · rw [List.mem_singleton.mp last]
        rfl
  | countDown host index =>
      refine ⟨rfl, fun _ => .none _, only ?_⟩
      apply (Point.claiming_uniform.resume _ index host).trans
      cases host with
      | claimer claimer => cases claimer <;> rfl
      | _ => rfl
  | finish index =>
      refine ⟨rfl, fun other => ?_, nofun⟩
      by_cases here : other = index
      · rw [here, setRequest_self, started index rfl]
        exact .finished
      · rw [setRequest_of_ne node here]
        exact .none _
  | finished owner => exact ⟨rfl, fun _ => .none _, nofun⟩
  | unlock | steal | cancel | cancelFails | stealDone | queuePending | queueStolen | addRef | submit | submitFails | mark |
      takeBack | markInline => cases without
  | _ => exact ⟨rfl, fun _ => .none _, only rfl⟩

theorem NodeChange.outside (change : NodeChange program true node gone node' come)
    (without : forall point, point ∈ gone -> point.inCritical = false)
    (started : forall index, .finish index ∈ gone -> node.request index = .started) : Outside node node' come := by
  have only : forall {next : Point}, next.claiming = false -> forall other, other ∈ [next] -> other.claiming = false := by
    intro next holds other member
    rw [List.mem_singleton.mp member]
    exact holds
  cases change with
  | step onLoop point points step =>
      apply step.outside (without point List.mem_cons_self)
      intro index same
      exact started index (List.mem_singleton.mpr same.symm)
  | dequeue index queued =>
      refine ⟨rfl, fun other => ?_, only rfl⟩
      by_cases here : other = index
      · rw [here, setRequest_self, queued]
        exact .dequeued
      · rw [setRequest_of_ne node here]
        exact .none _
  | report index done =>
      refine ⟨rfl, fun other => ?_, only rfl⟩
      by_cases here : other = index
      · rw [here, setRequest_self, done]
        exact .reported
      · rw [setRequest_of_ne node here]
        exact .none _
  | drain => exact ⟨rfl, fun _ => .none _, only (Point.claiming_uniform.queue _ _)⟩
  | _ => exact ⟨rfl, fun _ => .none _, only rfl⟩

section Proceeding

variable {before after : Request}

theorem Request.Proceeds.idle_iff (proceeds : before.Proceeds after) : after = .idle ↔ before = .idle := by
  cases proceeds with
  | none => exact Iff.rfl
  | _ => exact ⟨nofun, nofun⟩

theorem Request.Proceeds.refused_iff (proceeds : before.Proceeds after) : after = .refused ↔ before = .refused := by
  cases proceeds with
  | none => exact Iff.rfl
  | _ => exact ⟨nofun, nofun⟩

theorem Request.Proceeds.accepted (proceeds : before.Proceeds after) : after.accepted = before.accepted := by
  cases proceeds <;> rfl

theorem Request.Proceeds.unfinished (proceeds : before.Proceeds after) (finished : before.unfinished = false) :
    after.unfinished = false := by
  cases proceeds with
  | none => exact finished
  | dequeued => cases finished
  | _ => rfl

end Proceeding

theorem Outside.settled {index : Nat} (outside : Outside node node' come) (settled : node.Settled index) :
    node'.Settled index := by
  constructor
  · rw [outside.chunkState, (outside.request index).idle_iff]
    exact settled.pending
  · rw [outside.chunkState, (outside.request index).accepted]
    exact settled.queued
  · rw [outside.chunkState]
    intro doneInline
    exact (outside.request index).unfinished (settled.doneInline doneInline)

theorem Outside.claims (outside : Outside node node' come) (claims : point.Claims node) : point.Claims node' := by
  unfold Point.Claims at claims ⊢
  simp only [outside.chunkState, (outside.request _).idle_iff, (outside.request _).refused_iff,
    (outside.request _).accepted]
  exact claims

/-! ## All interleavings -/

/-- Who has the lock is alone. -/
theorem Locked.alone {rest : Multiset Point} (locked : Locked node (([point] : Multiset Point) + rest))
    (critical : point.inCritical = true) :
    node.lock = true ∧ forall other, other ∈ rest -> other.inCritical = false := by
  have exclusive := locked.exclusive
  rw [tally_add, List.countP_singleton, critical, if_pos rfl] at exclusive
  cases held : node.lock with
  | true =>
      rw [held, if_pos rfl] at exclusive
      refine ⟨rfl, tally_eq_zero_iff.mp ?_⟩
      omega
  | false =>
      rw [held, if_neg Bool.false_ne_true] at exclusive
      omega

theorem Locked.quiet {rest : Multiset Point} (locked : Locked node (([point] : Multiset Point) + rest))
    (critical : point.inCritical = true) (member : next ∈ rest) : next.claiming = false := by
  apply Bool.eq_false_iff.mpr
  intro claiming
  have also := Point.inCritical_of_claiming claiming
  rw [(locked.alone critical).2 next member] at also
  cases also

/-- Who has the lock finds all chunks settled but the one that it works on. -/
theorem Locked.settled_of_critical {rest : Multiset Point} {index : Nat}
    (locked : Locked node (([point] : Multiset Point) + rest)) (critical : point.inCritical = true)
    (elsewhere : point.submits index = false) : node.Settled index := by
  apply locked.settled
  intro other member
  rcases Multiset.mem_add.mp member with here | kept
  · rw [List.mem_singleton.mp here]
    exact elsewhere
  · exact Point.submits_of_not_claiming (locked.quiet critical kept)

/-- A request that a worker runs has been started. -/
theorem Locked.started {index : Nat} {points : Multiset Point} (locked : Locked node points) (member : point ∈ points)
    (inPool : point.inPool index = true) : node.request index = .started := by
  have counted := locked.pool index
  have some : 0 < tally (Point.inPool index) points := tally_pos_iff.mpr ⟨point, member, inPool⟩
  by_contra different
  rw [if_neg different] at counted
  omega

theorem locked_change {rest : Multiset Point} (unbegun : begun = false -> rest = 0)
    (change : NodeChange program begun node gone node' come) (locked : Locked node ((gone : Multiset Point) + rest)) :
    Locked node' ((come : Multiset Point) + rest) := by
  cases begun with
  | false =>
      rw [unbegun rfl, add_zero]
      cases change with
      | callEmpty | callSerial iterations | callParallel iterations =>
          refine ⟨rfl, fun point member => ?_, fun index _ => ?_, fun index => rfl⟩
          · rw [List.mem_singleton.mp member]
            trivial
          · exact ⟨fun _ => rfl, nofun, nofun⟩
  | true =>
      have started : forall index, .finish index ∈ gone -> node.request index = .started := by
        intro index member
        exact locked.started (Multiset.mem_add.mpr (Or.inl member)) (decide_eq_true rfl)
      have claims : forall point, point ∈ gone -> point.Claims node :=
        fun point member => locked.claims point (Multiset.mem_add.mpr (Or.inl member))
      have exclusive : tally Point.inCritical ((come : Multiset Point) + rest) = if node'.lock then 1 else 0 := by
        have before := locked.exclusive
        have moved := change.exclusive ?_
        · rw [tally_add] at before ⊢
          omega
        · intro point member critical
          by_contra free
          rw [if_neg free] at before
          have none := tally_eq_zero_iff.mp before point (Multiset.mem_add.mpr (Or.inl member))
          rw [critical] at none
          cases none
      have pool : forall index, tally (Point.inPool index) ((come : Multiset Point) + rest) =
          if node'.request index = .started then 1 else 0 := by
        intro index
        have before := locked.pool index
        have moved := change.pool claims started index
        rw [tally_add] at before ⊢
        omega
      by_cases outside : forall point, point ∈ gone -> point.inCritical = false
      · -- the others keep what they know
        have unchanged := change.outside outside started
        refine ⟨exclusive, ?_, ?_, pool⟩
        · intro point member
          rcases Multiset.mem_add.mp member with new | kept
          · exact Point.claims_of_not_claiming (unchanged.claiming point new)
          · exact unchanged.claims (locked.claims point (Multiset.mem_add.mpr (Or.inr kept)))
        · intro index free
          apply unchanged.settled
          apply locked.settled
          intro point member
          rcases Multiset.mem_add.mp member with old | kept
          · apply Point.submits_of_not_claiming
            apply Bool.eq_false_iff.mpr
            intro claiming
            have critical := Point.inCritical_of_claiming claiming
            rw [outside point old] at critical
            cases critical
          · exact free point (Multiset.mem_add.mpr (Or.inr kept))
      · -- nobody else knows anything
        cases change with
        | step onLoop point points step =>
            have critical : point.inCritical = true := by
              by_contra without
              apply outside
              intro other member
              rw [List.mem_singleton.mp member]
              exact Bool.eq_false_iff.mpr without
            have quiet : forall other, other ∈ rest -> other.claiming = false :=
              fun other member => locked.quiet critical member
            have after := step.inside critical (claims point List.mem_cons_self) ?_
            · refine ⟨exclusive, ?_, ?_, pool⟩
              · intro other member
                rcases Multiset.mem_add.mp member with new | kept
                · exact after.1 other new
                · exact Point.claims_of_not_claiming (quiet other kept)
              · intro index free
                apply after.2
                intro other new
                exact free other (Multiset.mem_add.mpr (Or.inl new))
            · exact fun index free => locked.settled_of_critical critical free
        | dequeue | report | drain => exact absurd (fun _ => nofun) outside
        | _ =>
            apply absurd _ outside
            intro point member
            rw [List.mem_singleton.mp member]
            rfl

theorem locked {call : Call} (reachable : (callSystem program).Reachable call) : Locked call.node call.points := by
  refine call_invariant ?_ ?_ reachable
  · exact ⟨rfl, fun _ impossible => absurd impossible (Multiset.notMem_zero _),
      fun _ _ => ⟨fun _ => rfl, nofun, nofun⟩, fun _ => rfl⟩
  · intro begun node node' gone come rest _ unbegun change earlier
    exact locked_change unbegun change earlier

end Libuv
end Sweater
