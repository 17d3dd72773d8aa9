import ReactorRuntime.Runtime.Subscriptions

/-!
# Subscriptions resume

What an iterator has yielded, with what is left of its backlog and what is in its queue, is
increasing; and every number after its start is there, or was evicted before it subscribed, or was
shed (`Subscription.Sound`, which no step breaks: `sound_isInvariant`).  A consumer that misses
nothing folds to what `snapshot` returns (`Journal.Sound.foldl_note_eq`).

An iterator that is closed before it was read leaves its queue in `_subscribers`, for the
`finally` of a generator whose body was never entered does not run (`not_subscriptions_resume`).
Without that, closed iterators leave nothing behind (`subscriptions_resume`).
-/

namespace ReactorRuntime.Runtime.EventStream

/-! ### The events with their numbers -/

def items (events : EventStream) : List Item := events.emitted.mapIdx fun i t => (i + 1, t)

/-- What `snapshot` returns of an empty journal. -/
def blank : SessionSnapshot where
  state := none
  connections := 0
  lastSeq := 0

variable {events : EventStream} {limits : Limits}

theorem length_items (events : EventStream) : events.items.length = events.emitted.length :=
  List.length_mapIdx

theorem items_emit (events : EventStream) (t : Transition) :
    (events.emit t).items = events.items ++ [(events.emitted.length + 1, t)] := by
  unfold items
  rw [emitted_emit, List.mapIdx_concat]

theorem mem_items {item : Item} :
    item ∈ events.items ↔ 1 ≤ item.1 ∧ events.items[item.1 - 1]? = some item := by
  constructor
  · intro h
    obtain ⟨i, hi, rfl⟩ := List.mem_mapIdx.mp h
    refine ⟨Nat.le_add_left 1 i, ?_⟩
    simp [items, hi]
  · rintro ⟨-, h⟩
    exact List.mem_of_getElem? h

theorem le_length_of_mem {item : Item} (h : item ∈ events.items) :
    item.1 ≤ events.emitted.length := by
  obtain ⟨i, hi, rfl⟩ := List.mem_mapIdx.mp h
  exact hi

theorem exists_mem_items {n : ℕ} (h : 1 ≤ n) (hn : n ≤ events.emitted.length) :
    ∃ item ∈ events.items, item.1 = n := by
  have hlt : n - 1 < events.emitted.length := by omega
  refine ⟨_, List.mem_mapIdx.mpr ⟨n - 1, hlt, rfl⟩, ?_⟩
  show n - 1 + 1 = n
  omega

theorem pairwise_items (events : EventStream) :
    events.items.Pairwise fun a b => a.1 < b.1 := by
  rw [List.pairwise_iff_getElem]
  intro i j hi hj hij
  simp only [items, List.getElem_mapIdx]
  omega

structure Counted (events : EventStream) : Prop where
  seq : events.seq = events.emitted.length
  snapshot : events.snapshot = events.items.foldl SessionSnapshot.note blank

theorem Counted.emit (h : Counted events) (t : Transition) : Counted (events.emit t) where
  seq := by
    show events.seq + 1 = (events.emitted ++ [t]).length
    rw [h.seq, List.length_append, List.length_singleton]
  snapshot := by
    rw [items_emit, List.foldl_append, ← h.snapshot, ← h.seq]
    rfl

/-! ### The history -/

theorem push_drop (hlimit : 1 ≤ limits.history) (l : List Item) (item : Item) :
    push limits.history (l.drop (l.length - limits.history)) item =
      (l ++ [item]).drop ((l ++ [item]).length - limits.history) := by
  unfold push
  rw [List.length_append, List.length_singleton, List.length_drop]
  split_ifs with hroom
  · have hall : l.length - limits.history = 0 := by omega
    have hall' : l.length + 1 - limits.history = 0 := by omega
    rw [hall, hall', List.drop_zero, List.drop_zero]
  · have hone : l.length + 1 - limits.history = l.length - limits.history + 1 := by omega
    rw [List.tail_drop, hone, List.drop_append_of_le_length (by omega)]

/-! ### What an iterator has to yield -/

namespace Subscription

def line (c : Subscription) : List Item := c.yielded ++ (c.backlog ++ c.queue)

/-- A number was evicted from the history before the iterator subscribed: the history was full, and
everything in it was newer. -/
def Evicted (limits : Limits) (c : Subscription) (n : ℕ) : Prop :=
  c.retained.length = limits.history ∧ ∀ item ∈ c.retained, n < item.1

/-- A number was shed from the queue. -/
def WasShed (c : Subscription) (n : ℕ) : Prop := ∃ shed ∈ c.shed, shed.item.1 = n

/-- What holds of an iterator over a journal, also once it is closed. -/
structure Sound (limits : Limits) (events : EventStream) (c : Subscription) : Prop where
  start_le : c.start ≤ events.emitted.length
  journalled : ∀ item ∈ c.line, item ∈ events.items
  above : ∀ item ∈ c.line, c.start < item.1
  increasing : c.line.Pairwise fun a b => a.1 < b.1
  /-- A registered iterator has every number after its start, up to the last one. -/
  reaches : ∀ n : ℕ, 1 ≤ n → c.start < n →
    (c.registered = true ∧ n ≤ events.emitted.length ∨ ∃ item ∈ c.yielded, n < item.1) →
    n ∈ c.line.map Prod.fst ∨ c.Evicted limits n ∨ c.WasShed n
  retained : ∀ item ∈ c.retained, item ∈ events.items
  queue_le : c.queue.length ≤ limits.subscriber
  shed : ∀ shed ∈ c.shed, shed.queue.length = limits.subscriber ∧
    shed.queue.head? = some shed.item ∧ shed.item.1 < shed.emitted ∧
    shed.emitted ≤ events.emitted.length
  registered : c.closed = false → c.registered = true
  left : c.closed = true → (c.registered = true ↔ c.entered = false)

variable {c : Subscription} {t : Transition}

/-- A journal that goes on takes nothing from an iterator that has left. -/
theorem Sound.emit_of_left (h : c.Sound limits events) (hleft : c.registered = false)
    (t : Transition) : c.Sound limits (events.emit t) where
  start_le := by
    have hle := h.start_le
    rw [emitted_emit, List.length_append]
    omega
  journalled item hitem := by
    rw [items_emit]
    exact List.mem_append_left _ (h.journalled item hitem)
  above := h.above
  increasing := h.increasing
  reaches n hn hstart hreached := by
    refine h.reaches n hn hstart (hreached.imp_left ?_)
    rintro ⟨hregistered, -⟩
    exact absurd (hleft.symm.trans hregistered) Bool.false_ne_true
  retained item hitem := by
    rw [items_emit]
    exact List.mem_append_left _ (h.retained item hitem)
  queue_le := h.queue_le
  shed shed hshed := by
    obtain ⟨hlength, hhead, hlt, hle⟩ := h.shed shed hshed
    refine ⟨hlength, hhead, hlt, ?_⟩
    rw [emitted_emit, List.length_append]
    omega
  registered := h.registered
  left := h.left

theorem offer_cases (limit : ℕ) (hlimit : 1 ≤ limit) (item : Item) (c : Subscription) :
    (c.queue.length < limit ∧ c.offer limit item = { c with queue := c.queue ++ [item] }) ∨
    ∃ oldest queue, c.queue = oldest :: queue ∧ limit ≤ c.queue.length ∧
      c.offer limit item =
        { c with
          queue := queue ++ [item]
          shed := c.shed ++ [{ item := oldest, queue := c.queue, emitted := item.1 }] } := by
  unfold offer
  split_ifs with hroom
  · exact .inl ⟨hroom, rfl⟩
  · cases hqueue : c.queue with
    | nil =>
      rw [hqueue, List.length_nil] at hroom
      omega
    | cons oldest queue =>
      refine .inr ⟨oldest, queue, rfl, ?_, rfl⟩
      rw [← hqueue]
      omega

/-- What an offer does to an iterator: the item is put at the end of its line, and what goes from
the line was shed. -/
structure Offered (limits : Limits) (item : Item) (c c' : Subscription) : Prop where
  start : c'.start = c.start
  retained : c'.retained = c.retained
  yielded : c'.yielded = c.yielded
  registered : c'.registered = c.registered
  entered : c'.entered = c.entered
  closed : c'.closed = c.closed
  queue_le : c'.queue.length ≤ limits.subscriber
  line : c'.line.Sublist (c.line ++ [item])
  keeps : ∀ a ∈ c.line ++ [item], a ∈ c'.line ∨ c'.WasShed a.1
  wasShed : ∀ n, c.WasShed n → c'.WasShed n
  shed : ∀ shed ∈ c'.shed, shed ∈ c.shed ∨ shed.queue.length = limits.subscriber ∧
    shed.queue.head? = some shed.item ∧ shed.item ∈ c.line ∧ shed.emitted = item.1

theorem offered (item : Item) (h : c.queue.length ≤ limits.subscriber) :
    Offered limits item c (c.offer limits.subscriber item) := by
  obtain ⟨hroom, heq⟩ | ⟨oldest, queue, hqueue, hfull, heq⟩ :=
    offer_cases limits.subscriber limits.one_le_subscriber item c
  · have hline :
        ({ c with queue := c.queue ++ [item] } : Subscription).line = c.line ++ [item] := by
      simp [line]
    rw [heq]
    refine ⟨rfl, rfl, rfl, rfl, rfl, rfl, ?_, ?_, ?_, fun n hn => hn, fun shed hin => .inl hin⟩
    · show (c.queue ++ [item]).length ≤ limits.subscriber
      rw [List.length_append, List.length_singleton]
      omega
    · simp [hline]
    · intro a ha
      rw [hline]
      exact .inl ha
  · have hlength : queue.length + 1 = limits.subscriber := by
      rw [hqueue, List.length_cons] at h hfull
      omega
    rw [heq]
    refine ⟨rfl, rfl, rfl, rfl, rfl, rfl, ?_, ?_, ?_, ?_, ?_⟩
    · show (queue ++ [item]).length ≤ limits.subscriber
      rw [List.length_append, List.length_singleton]
      omega
    · show List.Sublist (c.yielded ++ (c.backlog ++ (queue ++ [item]))) _
      simp only [line, hqueue, List.append_assoc]
      exact (List.Sublist.refl _).append
        ((List.Sublist.refl _).append ((List.sublist_cons_self oldest queue).append_right _))
    · intro a ha
      simp only [line, hqueue, List.mem_append, List.mem_cons, List.not_mem_nil, or_false,
        WasShed] at ha ⊢
      rcases ha with (hin | hin | rfl | hin) | rfl
      · exact .inl (.inl hin)
      · exact .inl (.inr (.inl hin))
      · exact .inr ⟨_, .inr rfl, rfl⟩
      · exact .inl (.inr (.inr (.inl hin)))
      · exact .inl (.inr (.inr (.inr rfl)))
    · rintro n ⟨shed, hin, rfl⟩
      exact ⟨shed, List.mem_append_left _ hin, rfl⟩
    · intro shed hin
      obtain hin | hin := List.mem_append.mp hin
      · exact .inl hin
      · obtain rfl := List.mem_singleton.mp hin
        refine .inr ⟨?_, ?_, ?_, rfl⟩
        · show c.queue.length = limits.subscriber
          rw [hqueue, List.length_cons, hlength]
        · show c.queue.head? = some oldest
          rw [hqueue]
          rfl
        · show oldest ∈ c.line
          simp [line, hqueue]

theorem Sound.emit_of_offered {c' : Subscription} (h : c.Sound limits events)
    (hregistered : c.registered = true)
    (hoffered : Offered limits (events.emitted.length + 1, t) c c') :
    c'.Sound limits (events.emit t) := by
  have hlength : (events.emit t).emitted.length = events.emitted.length + 1 := by
    rw [emitted_emit, List.length_append, List.length_singleton]
  have hlt : ∀ item ∈ c.line, item.1 < events.emitted.length + 1 := fun item hitem =>
    Nat.lt_succ_of_le (le_length_of_mem (h.journalled item hitem))
  have hmem : ∀ item ∈ c'.line, item ∈ c.line ∨ item = (events.emitted.length + 1, t) := by
    intro item hitem
    simpa using hoffered.line.subset hitem
  have hstart := h.start_le
  exact
    { start_le := by
        rw [hoffered.start, hlength]
        omega
      journalled := by
        intro item hitem
        rw [items_emit]
        obtain hitem | rfl := hmem item hitem
        · exact List.mem_append_left _ (h.journalled item hitem)
        · exact List.mem_append_right _ List.mem_cons_self
      above := by
        intro item hitem
        rw [hoffered.start]
        obtain hitem | rfl := hmem item hitem
        · exact h.above item hitem
        · show c.start < ((events.emitted.length + 1 : ℕ) : ℤ)
          omega
      increasing := by
        refine List.Pairwise.sublist hoffered.line (List.pairwise_append.mpr
          ⟨h.increasing, List.pairwise_singleton _ _, fun a ha b hb => ?_⟩)
        rw [List.mem_singleton.mp hb]
        exact hlt a ha
      reaches := by
        intro n hn hstart' hreached
        rw [hoffered.start] at hstart'
        rw [hoffered.yielded, hlength] at hreached
        have hkeeps : ∀ a ∈ c.line ++ [(events.emitted.length + 1, t)],
            a.1 ∈ c'.line.map Prod.fst ∨ c'.Evicted limits a.1 ∨ c'.WasShed a.1 := by
          intro a ha
          obtain hstays | hgone := hoffered.keeps a ha
          · exact .inl (List.mem_map_of_mem hstays)
          · exact .inr (.inr hgone)
        by_cases hle : n ≤ events.emitted.length
        · obtain hin | hevicted | hshed := h.reaches n hn hstart' (.inl ⟨hregistered, hle⟩)
          · obtain ⟨item, hitem, rfl⟩ := List.mem_map.mp hin
            exact hkeeps item (List.mem_append_left _ hitem)
          · refine .inr (.inl ?_)
            unfold Evicted at hevicted ⊢
            rwa [hoffered.retained]
          · exact .inr (.inr (hoffered.wasShed n hshed))
        · -- only the number that is emitted is new
          obtain ⟨-, hle'⟩ | ⟨item, hitem, hlt'⟩ := hreached
          · obtain rfl : n = events.emitted.length + 1 := by omega
            exact hkeeps (events.emitted.length + 1, t) (List.mem_append_right _ List.mem_cons_self)
          · have hitem' := hlt item (List.mem_append_left _ hitem)
            omega
      retained := by
        intro item hitem
        rw [hoffered.retained] at hitem
        rw [items_emit]
        exact List.mem_append_left _ (h.retained item hitem)
      queue_le := hoffered.queue_le
      shed := by
        intro shed hin
        rw [hlength]
        obtain hin | ⟨hfull, hhead, hitem, hnow⟩ := hoffered.shed shed hin
        · obtain ⟨hfull, hhead, hlt', hle⟩ := h.shed shed hin
          exact ⟨hfull, hhead, hlt', Nat.le_succ_of_le hle⟩
        · exact ⟨hfull, hhead, hnow ▸ hlt _ hitem, Nat.le_of_eq hnow⟩
      registered := by
        rw [hoffered.closed, hoffered.registered]
        exact h.registered
      left := by
        rw [hoffered.closed, hoffered.registered, hoffered.entered]
        exact h.left }

/-- A read takes the next item of the line, and the line stays. -/
theorem read_cases (c : Subscription) :
    c.closed = true ∧ c.read = c ∨
    c.closed = false ∧ ∃ backlog queue yielded,
      c.read = { c with entered := true, backlog, queue, yielded } ∧
      yielded ++ (backlog ++ queue) = c.line ∧ queue.length ≤ c.queue.length := by
  unfold Subscription.read
  cases hclosed : c.closed with
  | true => exact .inl ⟨rfl, if_pos rfl⟩
  | false =>
    refine .inr ⟨rfl, ?_⟩
    rw [if_neg Bool.false_ne_true]
    cases hbacklog : c.backlog with
    | cons item backlog => exact ⟨_, _, _, rfl, by simp [line, hbacklog], Nat.le_refl _⟩
    | nil =>
      cases hqueue : c.queue with
      | cons item queue =>
        refine ⟨_, _, _, rfl, by simp [line, hbacklog, hqueue], Nat.le_succ _⟩
      | nil => exact ⟨_, _, _, rfl, by simp [line, hbacklog, hqueue], Nat.le_refl _⟩

theorem Sound.read (h : c.Sound limits events) : c.read.Sound limits events := by
  obtain ⟨-, heq⟩ | ⟨hopen, backlog, queue, yielded, heq, hline, hqueue⟩ := read_cases c
  · rw [heq]
    exact h
  · rw [heq]
    have hjournalled := h.journalled
    have habove := h.above
    have hincreasing := h.increasing
    rw [← hline] at hjournalled habove hincreasing
    exact
      { start_le := h.start_le
        journalled := hjournalled
        above := habove
        increasing := hincreasing
        reaches := by
          intro n hn hstart hreached
          have hle : n ≤ events.emitted.length := by
            obtain ⟨-, hle⟩ | ⟨item, hitem, hlt⟩ := hreached
            · exact hle
            · have hle := le_length_of_mem (hjournalled item (List.mem_append_left _ hitem))
              omega
          have hall := h.reaches n hn hstart (.inl ⟨h.registered hopen, hle⟩)
          rw [← hline] at hall
          exact hall
        retained := h.retained
        queue_le := Nat.le_trans hqueue h.queue_le
        shed := h.shed
        registered := h.registered
        left := fun hclosed => absurd (hopen.symm.trans hclosed) Bool.false_ne_true }

theorem Sound.close (h : c.Sound limits events) : c.close.Sound limits events := by
  unfold Subscription.close
  split_ifs with hclosed
  · exact h
  · rw [Bool.not_eq_true] at hclosed
    have hregistered := h.registered hclosed
    exact
      { h with
        reaches := by
          intro n hn hstart hreached
          refine h.reaches n hn hstart (hreached.imp_left ?_)
          rintro ⟨-, hle⟩
          exact ⟨hregistered, hle⟩
        registered := fun hopen => Bool.noConfusion hopen
        left := fun _ => by
          show (c.registered && !c.entered) = true ↔ c.entered = false
          rw [hregistered, Bool.true_and, Bool.not_eq_true'] }

theorem Sound.new {start : ℤ} (hstart : start ≤ events.emitted.length) {history : List Item}
    (hhistory : history = events.items.drop (events.items.length - limits.history)) :
    (Subscription.new start history).Sound limits events := by
  have hsub : history.Sublist events.items := by
    rw [hhistory]
    exact List.drop_sublist _ _
  have hline : (Subscription.new start history).line =
      history.filter fun item => start < item.1 := by
    simp [line, Subscription.new]
  exact
    { start_le := hstart
      journalled := by
        intro item hitem
        rw [hline] at hitem
        exact hsub.subset (List.mem_filter.mp hitem).1
      above := by
        intro item hitem
        rw [hline] at hitem
        exact of_decide_eq_true (List.mem_filter.mp hitem).2
      increasing := by
        rw [hline]
        exact (pairwise_items events).sublist (List.filter_sublist.trans hsub)
      reaches := by
        intro n hn hlt hreached
        rw [hline]
        have hle : n ≤ events.emitted.length := by
          obtain ⟨-, hle⟩ | ⟨item, hitem, -⟩ := hreached
          · exact hle
          · exact (List.not_mem_nil hitem).elim
        obtain ⟨item, hitem, rfl⟩ := exists_mem_items hn hle
        rw [← List.take_append_drop (events.items.length - limits.history) events.items,
          List.mem_append, ← hhistory] at hitem
        obtain hgone | hitem := hitem
        · refine .inr (.inl ⟨?_, ?_⟩)
          · show history.length = limits.history
            have hne := List.length_pos_of_mem hgone
            rw [List.length_take] at hne
            rw [hhistory, List.length_drop]
            omega
          · intro a ha
            have hsorted := pairwise_items events
            rw [← List.take_append_drop (events.items.length - limits.history) events.items,
              ← hhistory] at hsorted
            exact (List.pairwise_append.mp hsorted).2.2 item hgone a ha
        · exact .inl (List.mem_map_of_mem (List.mem_filter.mpr ⟨hitem, decide_eq_true hlt⟩))
      retained := fun item hitem => hsub.subset hitem
      queue_le := Nat.zero_le _
      shed := fun shed hin => (List.not_mem_nil hin).elim
      registered := fun _ => rfl
      left := fun hclosed => Bool.noConfusion hclosed }

end Subscription

/-! ### The journal -/

/-- What holds of a journal in every run. -/
structure Journal.Sound (limits : Limits) (s : Journal) : Prop where
  counted : Counted s.events
  history : s.history = s.events.items.drop (s.events.items.length - limits.history)
  snapshots : ∀ view ∈ s.snapshots, view.lastSeq ≤ s.events.items.length ∧
    view = (s.events.items.take view.lastSeq).foldl SessionSnapshot.note blank
  subscriptions : ∀ c ∈ s.subscriptions, c.Sound limits s.events

theorem forall_mem_modify {p : Subscription → Prop} {f : Subscription → Subscription}
    {l : List Subscription} (h : ∀ c ∈ l, p c) (hf : ∀ c, p c → p (f c)) (i : ℕ) :
    ∀ c ∈ l.modify i f, p c := by
  intro c hc
  obtain ⟨j, hj⟩ := List.mem_iff_getElem?.mp hc
  rw [List.getElem?_modify] at hj
  obtain ⟨c', hc', rfl⟩ := Option.map_eq_some_iff.mp hj
  have hin := h c' (List.mem_of_getElem? hc')
  by_cases hij : i = j
  · rw [if_pos hij]
    exact hf c' hin
  · rw [if_neg hij]
    exact hin

variable {s s' : Journal} {acts : List Act}

theorem Journal.Sound.emit (h : s.Sound limits) (t : Transition) :
    (s.emit limits t).Sound limits where
  counted := h.counted.emit t
  history := by
    show push limits.history s.history (s.events.seq + 1, t) = _
    rw [h.counted.seq, h.history, push_drop limits.one_le_history]
    exact congrArg₂ _ (by rw [← items_emit]; rfl) (items_emit s.events t).symm
  snapshots := by
    intro view hview
    obtain ⟨hle, heq⟩ := h.snapshots view hview
    have hitems : (s.emit limits t).events.items =
        s.events.items ++ [(s.events.emitted.length + 1, t)] := items_emit s.events t
    rw [hitems, List.take_append_of_le_length hle]
    exact ⟨Nat.le_trans hle (by simp), heq⟩
  subscriptions := by
    intro c' hc'
    obtain ⟨c, hc, rfl⟩ := List.mem_map.mp hc'
    have hsound := h.subscriptions c hc
    cases hregistered : c.registered with
    | true =>
      rw [if_pos rfl, h.counted.seq]
      exact hsound.emit_of_offered hregistered (Subscription.offered _ hsound.queue_le)
    | false =>
      rw [if_neg Bool.false_ne_true]
      exact hsound.emit_of_left hregistered t

theorem Journal.Sound.subscribe (h : s.Sound limits) {since : Option ℤ}
    (hstep : s.subscribe since = some s') : s'.Sound limits := by
  unfold Journal.subscribe at hstep
  simp only at hstep
  split_ifs at hstep with hstart
  cases hstep
  rw [h.counted.seq] at hstart
  refine { h with subscriptions := fun c hc => ?_ }
  obtain hc | hc := List.mem_append.mp hc
  · exact h.subscriptions c hc
  · rw [List.mem_singleton.mp hc, h.counted.seq]
    exact .new hstart h.history

theorem sound_isInvariant (limits : Limits) :
    (journal limits).IsInvariant (Journal.Sound limits) where
  init :=
    { counted := ⟨rfl, rfl⟩
      history := List.drop_nil.symm
      snapshots := fun view hview => (List.not_mem_nil hview).elim
      subscriptions := fun c hc => (List.not_mem_nil hc).elim }
  step s act s' h hstep := by
    cases act with
    | emit t =>
      cases hstep
      exact h.emit t
    | subscribe since => exact h.subscribe hstep
    | read i =>
      cases hstep
      exact { h with
        subscriptions := forall_mem_modify h.subscriptions (fun c hc => hc.read) i }
    | close i =>
      cases hstep
      exact { h with
        subscriptions := forall_mem_modify h.subscriptions (fun c hc => hc.close) i }
    | snapshot =>
      cases hstep
      refine { h with snapshots := fun view hview => ?_ }
      obtain hview | hview := List.mem_append.mp hview
      · exact h.snapshots view hview
      · have hall : s.events.snapshot.lastSeq = s.events.items.length := by
          rw [length_items, ← h.counted.seq]
          rfl
        rw [List.mem_singleton.mp hview, hall, List.take_length]
        exact ⟨Nat.le_refl _, h.counted.snapshot⟩

/-! ### Without a gap -/

/-- Items with consecutive numbers are a part of the journal. -/
theorem eq_drop_of_range' {l : List Item} (hmem : ∀ item ∈ l, item ∈ events.items) {n : ℕ}
    (hrange : l.map Prod.fst = List.range' (n + 1) (events.items.length - n)) :
    l = events.items.drop n := by
  have hlength : l.length = events.items.length - n := by
    rw [← List.length_map Prod.fst, hrange, List.length_range']
  refine List.ext_getElem (by rw [hlength, List.length_drop]) fun i hi hi' => ?_
  have hnumber : l[i].1 = n + 1 + i := by
    have hget : (l.map Prod.fst)[i]? = some (n + 1 + i) := by
      rw [hrange, List.getElem?_range' (by omega)]
      simp
    rw [List.getElem?_map, List.getElem?_eq_getElem hi] at hget
    exact Option.some.inj hget
  obtain ⟨-, hat⟩ := mem_items.mp (hmem _ (List.getElem_mem hi))
  have hindex : l[i].1 - 1 = n + i := by omega
  rw [List.getElem_drop]
  rw [hindex] at hat
  exact (List.getElem?_eq_some_iff.mp hat).2.symm

/-- A consumer that knows what `snapshot` returned at its start and misses nothing comes to what
`snapshot` returns now. -/
theorem Journal.Sound.foldl_note_eq (h : s.Sound limits) {l : List Item}
    (hmem : ∀ item ∈ l, item ∈ s.events.items) {view : SessionSnapshot}
    (hview : view ∈ s.snapshots ∨ view = blank)
    (hrange : l.map Prod.fst = List.range' (view.lastSeq + 1) (s.events.seq - view.lastSeq)) :
    l.foldl SessionSnapshot.note view = s.events.snapshot := by
  have hknown : view.lastSeq ≤ s.events.items.length ∧
      view = (s.events.items.take view.lastSeq).foldl SessionSnapshot.note blank := by
    obtain hview | rfl := hview
    · exact h.snapshots view hview
    · exact ⟨Nat.zero_le _, rfl⟩
  obtain ⟨hle, heq⟩ := hknown
  rw [h.counted.seq, ← length_items] at hrange
  calc l.foldl SessionSnapshot.note view
      = (s.events.items.drop view.lastSeq).foldl SessionSnapshot.note
          ((s.events.items.take view.lastSeq).foldl SessionSnapshot.note blank) := by
        rw [← heq, eq_drop_of_range' hmem hrange]
    _ = s.events.items.foldl SessionSnapshot.note blank := by
        rw [← List.foldl_append, List.take_append_drop]
    _ = s.events.snapshot := h.counted.snapshot.symm

/-! ### Subscriptions resume -/

/-- What an iterator promises its consumer, and leaves behind. -/
structure Subscription.Resumes (limits : Limits) (s : Journal) (c : Subscription) : Prop where
  increasing : c.yielded.Pairwise fun a b => a.1 < b.1
  above : ∀ item ∈ c.yielded, c.start < item.1
  journalled : ∀ item ∈ c.yielded, item ∈ s.events.items
  skipped : ∀ item ∈ c.yielded, ∀ n : ℕ, 1 ≤ n → c.start < n → n < item.1 →
    n ∉ c.yielded.map Prod.fst → c.Evicted limits n ∨ c.WasShed n
  /-- What is shed is the oldest item of a full queue, and older than what is emitted then. -/
  shed : ∀ shed ∈ c.shed, shed.queue.length = limits.subscriber ∧
    shed.queue.head? = some shed.item ∧ shed.item.1 < shed.emitted
  /-- The newest item after the start of an open iterator is there. -/
  newest : c.closed = false → ∀ item, s.events.items.getLast? = some item → c.start < item.1 →
    item ∈ c.yielded ∨ item ∈ c.backlog ∨ item ∈ c.queue
  folds : ∀ view, view ∈ s.snapshots ∨ view = blank → view.lastSeq = c.start.toNat →
    c.yielded.map Prod.fst = List.range' (view.lastSeq + 1) (s.events.seq - view.lastSeq) →
    c.yielded.foldl SessionSnapshot.note view = s.events.snapshot
  deregistered : c.closed = true → c.registered = false

theorem mem_line_of_newest {c : Subscription} (h : c.Sound limits events)
    (hregistered : c.registered = true) {item : Item} (hlast : events.items.getLast? = some item)
    (hstart : c.start < item.1) : item ∈ c.line := by
  have hitem := List.mem_of_getLast? hlast
  have hnewest : ∀ a ∈ events.items, a.1 ≤ item.1 := by
    obtain ⟨before, hbefore⟩ := List.getLast?_eq_some_iff.mp hlast
    have hsorted := pairwise_items events
    rw [hbefore] at hsorted ⊢
    intro a ha
    obtain ha | ha := List.mem_append.mp ha
    · exact Nat.le_of_lt ((List.pairwise_append.mp hsorted).2.2 a ha item List.mem_cons_self)
    · obtain rfl := List.mem_singleton.mp ha
      exact Nat.le_refl _
  have hunique : ∀ a ∈ events.items, a.1 = item.1 → a = item := by
    intro a ha heq
    have hat := (mem_items.mp ha).2
    rw [heq, (mem_items.mp hitem).2] at hat
    exact (Option.some.inj hat).symm
  obtain hin | ⟨hfull, hnewer⟩ | ⟨shed, hshed, hnumber⟩ := h.reaches item.1 (mem_items.mp hitem).1
    hstart (.inl ⟨hregistered, le_length_of_mem hitem⟩)
  · obtain ⟨a, ha, heq⟩ := List.mem_map.mp hin
    exact hunique a (h.journalled a ha) heq ▸ ha
  · -- the history retains at least one item, and none that is newer
    have hpos : 0 < c.retained.length := hfull ▸ limits.one_le_history
    obtain ⟨a, ha⟩ := List.exists_mem_of_length_pos hpos
    have hlt := hnewer a ha
    have hle := hnewest a (h.retained a ha)
    omega
  · obtain ⟨-, -, hlt, hle⟩ := h.shed shed hshed
    obtain ⟨a, ha, hemitted⟩ := exists_mem_items (n := shed.emitted) (by omega) hle
    have hle' := hnewest a ha
    omega

theorem Subscription.Sound.toResumes {c : Subscription} (hs : s.Sound limits)
    (hc : c ∈ s.subscriptions) (hleft : c.closed = true → c.entered = true) :
    c.Resumes limits s := by
  have h := hs.subscriptions c hc
  have hyielded : ∀ item ∈ c.yielded, item ∈ c.line := fun item => List.mem_append_left _
  exact
    { increasing := (List.pairwise_append.mp h.increasing).1
      above := fun item hitem => h.above item (hyielded item hitem)
      journalled := fun item hitem => h.journalled item (hyielded item hitem)
      skipped := by
        intro item hitem n hn hstart hlt hskipped
        obtain hin | hgone := h.reaches n hn hstart (.inr ⟨item, hitem, hlt⟩)
        · -- what comes after the yielded items has a larger number
          obtain ⟨a, ha, rfl⟩ := List.mem_map.mp hin
          obtain ha | ha := List.mem_append.mp ha
          · exact absurd (List.mem_map_of_mem ha) hskipped
          · have hafter := (List.pairwise_append.mp h.increasing).2.2 item hitem a ha
            omega
        · exact hgone
      shed := by
        intro shed hshed
        obtain ⟨hfull, hhead, hlt, -⟩ := h.shed shed hshed
        exact ⟨hfull, hhead, hlt⟩
      newest := by
        intro hopen item hlast hstart
        have hin := mem_line_of_newest h (h.registered hopen) hlast hstart
        simpa only [line, List.mem_append] using hin
      folds := fun view hview _ hrange =>
        hs.foldl_note_eq (fun item hitem => h.journalled item (hyielded item hitem)) hview hrange
      deregistered := by
        intro hclosed
        rw [← Bool.not_eq_true, h.left hclosed, hleft hclosed]
        exact fun h => Bool.noConfusion h }

def ReadBeforeClose (s : Journal) : Act → Prop
  | .close i => ∀ c ∈ s.subscriptions[i]?, c.entered = true
  | _ => True

instance (s : Journal) : (act : Act) → Decidable (ReadBeforeClose s act)
  | .close i => inferInstanceAs (Decidable (∀ c ∈ s.subscriptions[i]?, c.entered = true))
  | .emit _ => .isTrue trivial
  | .subscribe _ => .isTrue trivial
  | .read _ => .isTrue trivial
  | .snapshot => .isTrue trivial

def Journal.ClosedRead (s : Journal) : Prop :=
  ∀ c ∈ s.subscriptions, c.closed = true → c.entered = true

theorem Subscription.offer_flags (limit : ℕ) (item : Item) (c : Subscription) :
    (c.offer limit item).closed = c.closed ∧ (c.offer limit item).entered = c.entered := by
  unfold offer
  split_ifs
  · exact ⟨rfl, rfl⟩
  · cases c.queue <;> exact ⟨rfl, rfl⟩

theorem Journal.ClosedRead.step {act : Act} (h : s.ClosedRead) (hread : ReadBeforeClose s act)
    (hstep : (journal limits).step s act = some s') : s'.ClosedRead := by
  cases act with
  | emit t =>
    cases hstep
    intro c' hc' hclosed
    obtain ⟨c, hc, rfl⟩ := List.mem_map.mp hc'
    split_ifs at hclosed ⊢
    · obtain ⟨hclosed', hentered⟩ :=
        Subscription.offer_flags limits.subscriber (s.events.seq + 1, t) c
      rw [hentered]
      exact h c hc (hclosed' ▸ hclosed)
    · exact h c hc hclosed
  | subscribe since =>
    simp only [journal, Journal.step, Journal.subscribe] at hstep
    split_ifs at hstep
    cases hstep
    intro c hc hclosed
    obtain hc | hc := List.mem_append.mp hc
    · exact h c hc hclosed
    · rw [List.mem_singleton.mp hc] at hclosed
      exact Bool.noConfusion hclosed
  | read i =>
    cases hstep
    refine forall_mem_modify h (fun c hc => ?_) i
    obtain ⟨-, heq⟩ | ⟨-, _, _, _, heq, -, -⟩ := Subscription.read_cases c
    · rw [heq]
      exact hc
    · rw [heq]
      exact fun _ => rfl
  | close i =>
    cases hstep
    intro c' hc' hclosed
    obtain ⟨j, hj⟩ := List.mem_iff_getElem?.mp hc'
    have hentered : ∀ c : Subscription, c.close.entered = c.entered := by
      intro c
      unfold Subscription.close
      split_ifs <;> rfl
    rw [List.getElem?_modify] at hj
    obtain ⟨c, hc, rfl⟩ := Option.map_eq_some_iff.mp hj
    by_cases hij : i = j
    · rw [if_pos hij, hentered]
      exact hread c (hij ▸ hc)
    · rw [if_neg hij] at hclosed ⊢
      exact h c (List.mem_of_getElem? hc) hclosed
  | snapshot =>
    cases hstep
    exact h

/-- If no iterator is closed before it was read, subscriptions resume and leave nothing behind. -/
theorem subscriptions_resume (hrun : (journal limits).run acts = some s)
    (hread : (journal limits).AllSteps ReadBeforeClose acts) :
    ∀ c ∈ s.subscriptions, c.Resumes limits s := by
  have hsound := (sound_isInvariant limits).of_run hrun
  have hclosed := TransitionSystem.AllSteps.invariant (I := Journal.ClosedRead)
    (fun c hc => (List.not_mem_nil hc).elim) (fun _ _ _ h hread hstep => h.step hread hstep)
    hread hrun
  exact fun c hc => Subscription.Sound.toResumes hsound hc (hclosed c hc)

/-! ### Runs -/

/-- A history of two events, and a queue of one. -/
def smallLimits : Limits := ⟨2, 1, by decide, by decide⟩

/-- Four connections open; a consumer that resumes after the first one finds one event evicted, and
one is shed while it does not read. -/
def resumingRun : List Act :=
  let opened : Transition := ⟨.connectionOpened, .streaming, .streaming, .fact⟩
  [.emit opened, .snapshot, .emit opened, .emit opened, .emit opened, .subscribe (some 1), .read 0,
    .read 0, .emit opened, .emit opened, .read 0, .close 0]

theorem isSome_resumingRun : ((journal smallLimits).run resumingRun).isSome := rfl

theorem subscriptions_resume_resumingRun :
    ∃ s, (journal smallLimits).run resumingRun = some s ∧
      (∃ c ∈ s.subscriptions, c.yielded.map Prod.fst = [3, 4, 6]) ∧
      ∀ c ∈ s.subscriptions, c.Resumes smallLimits s := by
  refine ⟨_, (Option.some_get isSome_resumingRun).symm, by decide +kernel, ?_⟩
  exact subscriptions_resume (Option.some_get isSome_resumingRun).symm (by decide +kernel)

/-- An iterator is closed before it was read, and its queue stays where `emit` finds it. -/
def unreadRun : List Act := [.subscribe none, .close 0]

theorem isSome_unreadRun : ((journal smallLimits).run unreadRun).isSome := rfl

theorem not_subscriptions_resume : ¬∀ (limits : Limits) (acts : List Act) (s : Journal),
    (journal limits).run acts = some s → ∀ c ∈ s.subscriptions, c.Resumes limits s := by
  intro hall
  obtain ⟨c, hc, hclosed, hregistered⟩ :
      ∃ c ∈ (((journal smallLimits).run unreadRun).get isSome_unreadRun).subscriptions,
        c.closed = true ∧ c.registered = true := by decide +kernel
  have hresumes := hall _ _ _ (Option.some_get isSome_unreadRun).symm c hc
  exact Bool.false_ne_true ((hresumes.deregistered hclosed).symm.trans hregistered)

end ReactorRuntime.Runtime.EventStream
