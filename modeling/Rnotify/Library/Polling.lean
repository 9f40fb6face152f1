import Rnotify.Library.Progress

/-! Queues that are polled.

A poller has a fixed list of queues. It waits until one of them is not empty, notes
which are not (`poll`), and takes one element from each of these, in the order of its
list (`receive`), before it waits again. Elements arrive at any moment. So each queue
is served in the order of arrival (`fifo`), an element is taken before as many
returns from the wait as there are elements before it and two more, whatever arrives
at the other queues (`waits`), and when nothing arrives any more the queues are
emptied (`ranked`, `settled_iff`). -/
namespace Rnotify.Library

structure Polling (ι μ : Type*) where
  queues : ι → List μ
  /-- The queues that the current round has still to take from. -/
  ready : List ι
  /-- What was taken so far, and from which queue. -/
  received : List (ι × μ)

namespace Polling
variable {ι μ : Type*}

inductive Move (ι μ : Type*) where
  | arrive (i : ι) (m : μ)
  | poll
  | receive

/-- What was taken from a queue, in order. -/
def takenFrom [DecidableEq ι] (i : ι) (received : List (ι × μ)) : List μ :=
  (received.filter fun r => r.1 = i).map Prod.snd

variable [DecidableEq ι]

def step (items : List ι) (s : Polling ι μ) : Move ι μ → Option (Polling ι μ)
  | .arrive i m => some { s with queues := Function.update s.queues i (s.queues i ++ [m]) }
  | .poll =>
    if s.ready = [] ∧ ∃ i ∈ items, s.queues i ≠ [] then
      some { s with ready := items.filter fun i => !(s.queues i).isEmpty }
    else none
  | .receive =>
    match s.ready with
    | [] => none
    | i :: rest =>
      match s.queues i with
      | [] => none
      | m :: queue =>
        some ⟨Function.update s.queues i queue, rest, s.received ++ [(i, m)]⟩

def polling (items : List ι) (μ : Type*) : System (Polling ι μ) (Move ι μ) where
  initial := ⟨fun _ => [], [], []⟩
  step := step items

variable {items : List ι} {s t : Polling ι μ}

/-! ### What a step does -/

theorem step_poll (h : step items s .poll = some t) :
    s.ready = [] ∧ (∃ i ∈ items, s.queues i ≠ []) ∧
      t = { s with ready := items.filter fun i => !(s.queues i).isEmpty } := by
  simp only [step] at h
  split at h
  · next hcond => exact ⟨hcond.1, hcond.2, (Option.some.inj h).symm⟩
  · cases h

theorem step_receive (h : step items s .receive = some t) :
    ∃ i rest m queue, s.ready = i :: rest ∧ s.queues i = m :: queue ∧
      t = ⟨Function.update s.queues i queue, rest, s.received ++ [(i, m)]⟩ := by
  simp only [step] at h
  split at h
  · cases h
  · next i rest hready =>
    split at h
    · cases h
    · next m queue hqueue => exact ⟨i, rest, m, queue, hready, hqueue, (Option.some.inj h).symm⟩

omit [DecidableEq ι] in
theorem mem_filter_queues {i : ι} {queues : ι → List μ} :
    i ∈ items.filter (fun i => !(queues i).isEmpty) ↔ i ∈ items ∧ queues i ≠ [] := by
  simp

theorem takenFrom_append (i : ι) (a b : List (ι × μ)) : takenFrom i (a ++ b) = takenFrom i a ++ takenFrom i b := by
  rw [takenFrom, List.filter_append, List.map_append]
  rfl

/-- What is marked as taken from one queue. -/
theorem takenFrom_map (i j : ι) (l : List μ) : takenFrom i (l.map (j, ·)) = if j = i then l else [] := by
  rw [takenFrom, List.filter_map, List.map_map]
  by_cases hj : j = i <;> simp [hj, Function.comp_def]

theorem takenFrom_concat (i j : ι) (received : List (ι × μ)) (m : μ) :
    takenFrom i (received ++ [(j, m)]) = takenFrom i received ++ if j = i then [m] else [] := by
  rw [takenFrom_append]
  exact congrArg _ (takenFrom_map i j [m])

/-- Only `receive` takes something, and one element. -/
theorem received_cases {a : Move ι μ} (h : step items s a = some t) :
    (∃ i m, a = .receive ∧ i ∈ s.ready ∧ t.received = s.received ++ [(i, m)]) ∨
      a ≠ .receive ∧ t.received = s.received := by
  cases a with
  | arrive i m =>
    rw [← Option.some.inj h]
    exact Or.inr ⟨nofun, rfl⟩
  | poll =>
    obtain ⟨_, _, rfl⟩ := step_poll h
    exact Or.inr ⟨nofun, rfl⟩
  | receive =>
    obtain ⟨i, rest, m, queue, hready, _, rfl⟩ := step_receive h
    exact Or.inl ⟨i, m, rfl, by simp [hready], rfl⟩

/-! ### Order -/

/-- What arrived at a queue. -/
def arrivals (i : ι) (h : List (Move ι μ)) : List μ := h.flatMap fun
  | .arrive j m => if j = i then [m] else []
  | _ => []

theorem arrivals_append (i : ι) (a b : List (Move ι μ)) : arrivals i (a ++ b) = arrivals i a ++ arrivals i b :=
  List.flatMap_append

theorem fifo_step (i : ι) {a : Move ι μ} (hstep : step items s a = some t) :
    takenFrom i s.received ++ s.queues i ++ arrivals i [a] = takenFrom i t.received ++ t.queues i := by
  cases a with
  | arrive j m =>
    obtain rfl := (Option.some.inj hstep).symm
    by_cases hj : j = i
    · simp [arrivals, hj]
    · simp [arrivals, hj, Function.update_of_ne (Ne.symm hj)]
  | poll =>
    obtain ⟨_, _, rfl⟩ := step_poll hstep
    exact List.append_nil _
  | receive =>
    obtain ⟨j, rest, m, queue, _, hqueue, rfl⟩ := step_receive hstep
    rw [takenFrom_concat]
    by_cases hj : j = i
    · rw [hj] at hqueue
      simp [arrivals, hj, hqueue]
    · simp [arrivals, hj, Function.update_of_ne (Ne.symm hj)]

/-- **In order**: what arrived at a queue is what was taken from it and then what is in it. -/
theorem fifo (i : ι) {h : List (Move ι μ)} (hr : (polling items μ).exec (polling items μ).initial h = some s) :
    arrivals i h = takenFrom i s.received ++ s.queues i := by
  refine (polling items μ).history_invariant (fun h s => arrivals i h = takenFrom i s.received ++ s.queues i) rfl
    ?_ h s hr
  intro h s a t hs hstep
  rw [arrivals_append, hs]
  exact fifo_step i hstep

/-! ### Rounds -/

/-- The rest of a round: queues of the list, each once, with something to take. -/
structure Round (items : List ι) (s : Polling ι μ) : Prop where
  nodup : s.ready.Nodup
  subset : s.ready ⊆ items
  waiting : ∀ i ∈ s.ready, s.queues i ≠ []

omit [DecidableEq ι] in
theorem round_of_nil (h : s.ready = []) : Round items s := by
  refine ⟨?_, ?_, ?_⟩ <;> simp [h]

theorem round_step (hitems : items.Nodup) (hs : Round items s) {a : Move ι μ}
    (hstep : step items s a = some t) : Round items t := by
  cases a with
  | arrive j m =>
    obtain rfl := (Option.some.inj hstep).symm
    refine ⟨hs.nodup, hs.subset, fun i hi => ?_⟩
    by_cases hij : i = j
    · simp [hij]
    · simp [Function.update_of_ne hij, hs.waiting i hi]
  | poll =>
    obtain ⟨_, _, rfl⟩ := step_poll hstep
    refine ⟨hitems.filter _, fun i hi => (mem_filter_queues.mp hi).1, fun i hi => ?_⟩
    exact (mem_filter_queues.mp hi).2
  | receive =>
    obtain ⟨j, rest, m, queue, hready, hqueue, rfl⟩ := step_receive hstep
    obtain ⟨hnodup, hsubset, hwaiting⟩ := hs
    rw [hready] at hnodup hsubset hwaiting
    refine ⟨hnodup.of_cons, fun i hi => hsubset (List.mem_cons_of_mem j hi), fun i hi => ?_⟩
    have hij : i ≠ j := by
      rintro rfl
      exact (List.nodup_cons.mp hnodup).1 hi
    simp [Function.update_of_ne hij, hwaiting i (List.mem_cons_of_mem j hi)]

theorem round_run (hitems : items.Nodup) {h : List (Move ι μ)}
    (hr : (polling items μ).exec (polling items μ).initial h = some s) : Round items s :=
  (polling items μ).invariant (Round items) (fun _ _ _ hs hstep => round_step hitems hs hstep) h _ s
    (round_of_nil rfl) hr

/-- Nothing is taken from a queue that is not on the list. -/
theorem taken_only (hitems : items.Nodup) {i : ι} (hi : i ∉ items) {h : List (Move ι μ)}
    (hr : (polling items μ).exec (polling items μ).initial h = some s) : takenFrom i s.received = [] := by
  have hall := (polling items μ).invariant (fun s => Round items s ∧ takenFrom i s.received = []) ?_ h _ s
    ⟨round_of_nil rfl, rfl⟩ hr
  · exact hall.2
  · intro s a t ⟨hround, hnone⟩ hstep
    refine ⟨round_step hitems hround hstep, ?_⟩
    have hmove : step items s a = some t := hstep
    obtain ⟨j, m, _, hj, hreceived⟩ | ⟨_, hreceived⟩ := received_cases hmove
    · have hij : j ≠ i := fun he => hi (he ▸ hround.subset hj)
      rw [hreceived, takenFrom_concat, hnone, if_neg hij, List.append_nil]
    · rw [hreceived, hnone]

/-! ### Waiting -/

def Move.isPoll : Move ι μ → Bool
  | .poll => true
  | _ => false

/-- How many more returns from the wait an element needs that has `n - 1` before it. -/
def due (s : Polling ι μ) (i : ι) (n : ℕ) : ℕ := if i ∈ s.ready then n else n + 1

/-- Nothing that was taken is put back. -/
theorem taken_run (i : ι) {labels : List (Move ι μ)} (hr : (polling items μ).exec s labels = some t) :
    takenFrom i s.received <+: takenFrom i t.received := by
  refine (polling items μ).invariant (fun u => takenFrom i s.received <+: takenFrom i u.received) ?_ labels s t
    (List.prefix_refl _) hr
  intro u a v hu hstep
  have hmove : step items u a = some v := hstep
  obtain ⟨j, m, _, _, hreceived⟩ | ⟨_, hreceived⟩ := received_cases hmove
  · rw [hreceived, takenFrom_concat]
    exact hu.trans (List.prefix_append ..)
  · rw [hreceived]
    exact hu

/-- **In time**: the first `n` elements of a polled queue have been taken when the poller has come back from the wait
`n + 1` times, or `n` times if it is to take from the queue in the round that it is in, whatever has arrived
meanwhile. -/
theorem waits {i : ι} (hi : i ∈ items) (hitems : items.Nodup) (labels : List (Move ι μ)) (n : ℕ)
    (hs : Round items s) (hn : n ≤ (s.queues i).length) (hpolls : due s i n ≤ labels.countP Move.isPoll)
    (hr : (polling items μ).exec s labels = some t) :
    takenFrom i s.received ++ (s.queues i).take n <+: takenFrom i t.received := by
  -- on the run; what is due is one less after each return, and after each time that the queue is served
  induction labels generalizing s n with
  | nil =>
    cases hr
    have hzero : n = 0 := by
      unfold due at hpolls
      split at hpolls <;> simp_all
    simp [hzero]
  | cons a rest ih =>
    obtain rfl | hpos := Nat.eq_zero_or_pos n
    · rw [List.take_zero, List.append_nil]
      exact taken_run i hr
    rw [System.exec_cons, Option.bind_eq_some_iff] at hr
    obtain ⟨m, hm, hr⟩ := hr
    have hm : step items s a = some m := hm
    have hround := round_step hitems hs hm
    cases a with
    | arrive j x =>
      obtain rfl := (Option.some.inj hm).symm
      have hqueue : (s.queues i) <+: Function.update s.queues j (s.queues j ++ [x]) i := by
        by_cases hij : i = j
        · rw [hij, Function.update_self]
          exact List.prefix_append ..
        · rw [Function.update_of_ne hij]
      have htake : (Function.update s.queues j (s.queues j ++ [x]) i).take n = (s.queues i).take n := by
        obtain ⟨more, hmore⟩ := hqueue
        rw [← hmore, List.take_append_of_le_length hn]
      have hrest := ih n hround (hn.trans hqueue.length_le) hpolls hr
      rwa [htake] at hrest
    | poll =>
      obtain ⟨hready, _, rfl⟩ := step_poll hm
      have hwaiting : s.queues i ≠ [] := List.ne_nil_of_length_pos (hpos.trans_le hn)
      have hmem : i ∈ items.filter fun i => !(s.queues i).isEmpty := mem_filter_queues.mpr ⟨hi, hwaiting⟩
      have hrest := ih n hround hn ?_ hr
      · exact hrest
      simp only [due, hready, List.not_mem_nil, if_false, List.countP_cons, Move.isPoll, if_true] at hpolls
      rw [due, if_pos hmem]
      omega
    | receive =>
      obtain ⟨j, left, x, queue, hready, hqueue, rfl⟩ := step_receive hm
      have hcount : (Move.receive :: rest : List (Move ι μ)).countP Move.isPoll = rest.countP Move.isPoll := by
        simp [Move.isPoll]
      rw [hcount] at hpolls
      by_cases hij : i = j
      · obtain ⟨n, rfl⟩ := Nat.exists_eq_succ_of_ne_zero hpos.ne'
        rw [← hij] at hround hr hqueue hready
        have hleft : i ∉ left := (List.nodup_cons.mp (hready ▸ hs.nodup)).1
        simp only [due, hready, List.mem_cons_self, if_true] at hpolls
        have hrest := ih n hround ?_ ?_ hr
        · simp only [takenFrom_concat, if_true, Function.update_self] at hrest
          rw [hqueue, List.take_succ_cons]
          rwa [List.append_assoc] at hrest
        · rw [hqueue, List.length_cons] at hn
          simp only [Function.update_self]
          omega
        · simp only [due, if_neg hleft]
          exact hpolls
      · have hdue : due ⟨Function.update s.queues j queue, left, s.received ++ [(j, x)]⟩ i n = due s i n := by
          simp [due, hready, hij]
        have hrest := ih n hround ?_ (hdue ▸ hpolls) hr
        · simp only [takenFrom_concat, if_neg (Ne.symm hij), List.append_nil, Function.update_of_ne hij] at hrest
          exact hrest
        · simp only [Function.update_of_ne hij]
          exact hn

/-! ### When nothing arrives any more -/

def Move.own : Move ι μ → Prop
  | .arrive _ _ => False
  | _ => True

/-- Each element is to be noted and to be taken. -/
def rank (items : List ι) (s : Polling ι μ) : ℕ :=
  (items.map fun i => 2 * (s.queues i).length - if i ∈ s.ready then 1 else 0).sum

theorem rank_poll (hstep : step items s .poll = some t) : rank items t < rank items s := by
  obtain ⟨hready, ⟨i, hi, hwaiting⟩, rfl⟩ := step_poll hstep
  have hlength := List.length_pos_of_ne_nil hwaiting
  refine List.sum_lt_sum _ _ (fun j hj => ?_) ⟨i, hi, ?_⟩
  · rw [hready, if_neg List.not_mem_nil]
    exact Nat.sub_le ..
  · rw [hready, if_neg List.not_mem_nil, if_pos (mem_filter_queues.mpr ⟨hi, hwaiting⟩)]
    simp only
    omega

theorem rank_receive (hs : Round items s) (hstep : step items s .receive = some t) :
    rank items t < rank items s := by
  obtain ⟨i, rest, m, queue, hready, hqueue, rfl⟩ := step_receive hstep
  have hi : i ∈ items := hs.subset (by simp [hready])
  have hleft : i ∉ rest := (List.nodup_cons.mp (hready ▸ hs.nodup)).1
  have hlower : 2 * queue.length < 2 * (m :: queue).length - 1 := by
    rw [List.length_cons]
    omega
  refine List.sum_lt_sum _ _ (fun j hj => ?_) ⟨i, hi, ?_⟩
  · by_cases hij : j = i
    · simpa [hij, hready, hleft, hqueue] using hlower.le
    · simp [hij, hready]
  · simpa [hready, hleft, hqueue] using hlower

/-- **Left to itself the poller empties its queues**: its own steps come to an end. -/
theorem ranked (hitems : items.Nodup) : (polling items μ).Ranked Move.own (Round items) (rank items) where
  keeps := fun _ _ _ hs _ hstep => round_step hitems hs hstep
  lowers := by
    intro s a t hs hown hstep
    cases a with
    | arrive i m => exact hown.elim
    | poll => exact rank_poll hstep
    | receive => exact rank_receive hs hstep

/-- The poller waits for good exactly when there is nothing left to take. -/
theorem settled_iff (hs : Round items s) :
    (polling items μ).Settled Move.own s ↔ s.ready = [] ∧ ∀ i ∈ items, s.queues i = [] := by
  constructor
  · intro hsettled
    have hready : s.ready = [] := by
      by_contra hne
      obtain ⟨i, rest, hready⟩ := List.exists_cons_of_ne_nil hne
      obtain ⟨m, queue, hqueue⟩ := List.exists_cons_of_ne_nil (hs.waiting i (by simp [hready]))
      have hnone : step items s .receive = none := hsettled .receive trivial
      simp [step, hready, hqueue] at hnone
    refine ⟨hready, fun i hi => ?_⟩
    by_contra hne
    have hnone : step items s .poll = none := hsettled .poll trivial
    rw [step, if_pos ⟨hready, i, hi, hne⟩] at hnone
    cases hnone
  · rintro ⟨hready, hempty⟩ a hown
    cases a with
    | arrive i m => exact hown.elim
    | poll =>
      refine if_neg ?_
      rintro ⟨_, i, hi, hne⟩
      exact hne (hempty i hi)
    | receive => simp [polling, step, hready]

end Polling

end Rnotify.Library
