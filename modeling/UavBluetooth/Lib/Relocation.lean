import Mathlib.Tactic

set_option autoImplicit false

/-! # Nested arrays whose growth moves their elements

An array is named by the path from the root to it, and the elements of an array lie below it.
Making an array longer moves all its elements, with whatever lies below them, so that a pointer
taken before no longer refers to its element. A run of `reserve` and `take` is followed here
once and for all: which of the taken pointers are good at the end can be read off the requests.
-/

namespace Relocation

variable {ι : Type}

/-- The arrays of a value: their lengths, and the time at which their elements last moved. -/
structure Store (ι : Type) where
  length : List ι → Nat
  moved : List ι → Nat
  clock : Nat

/-- A pointer to the element at a path, with the time at which it was taken. -/
structure Pointer (ι : Type) where
  path : List ι
  taken : Nat
  deriving DecidableEq, Repr

namespace Store

/-- Arrays that nothing has moved yet. -/
def initial (length : List ι → Nat) : Store ι := ⟨length, fun _ => 0, 0⟩

def take (s : Store ι) (path : List ι) : Pointer ι := ⟨path, s.clock⟩

/-- No array around the element has moved since the pointer was taken. -/
def Live (s : Store ι) (pointer : Pointer ι) : Prop :=
  ∀ p, p <+: pointer.path → s.moved p ≤ pointer.taken

instance (s : Store ι) (pointer : Pointer ι) : Decidable (s.Live pointer) :=
  decidable_of_iff (∀ p ∈ pointer.path.inits, s.moved p ≤ pointer.taken) (by
    simp only [Live, List.mem_inits])

/-- Nothing moves in the future. -/
def WellTimed (s : Store ι) : Prop := ∀ p, s.moved p ≤ s.clock

theorem initial_wellTimed (length : List ι → Nat) : (initial length).WellTimed :=
  fun _ => Nat.le_refl 0

theorem WellTimed.live_take {s : Store ι} (h : s.WellTimed) (path : List ι) :
    s.Live (s.take path) := fun p _ => h p

variable [DecidableEq ι]

def resize (s : Store ι) (array : List ι) (n : Nat) : Store ι :=
  ⟨Function.update s.length array n, Function.update s.moved array (s.clock + 1), s.clock + 1⟩

/-- Make an array long enough. -/
def reserve (s : Store ι) (array : List ι) (n : Nat) : Store ι :=
  if n ≤ s.length array then s else s.resize array n

theorem reserve_of_le {s : Store ι} {array : List ι} {n : Nat} (h : n ≤ s.length array) :
    s.reserve array n = s := if_pos h

theorem reserve_of_lt {s : Store ι} {array : List ι} {n : Nat} (h : s.length array < n) :
    s.reserve array n = s.resize array n := if_neg (Nat.not_le_of_lt h)

/-- The longer of what an array is and what it is asked to be. -/
def raised (length : List ι → Nat) (array : List ι) (n : Nat) : List ι → Nat :=
  Function.update length array (max (length array) n)

@[simp] theorem reserve_length (s : Store ι) (array : List ι) (n : Nat) :
    (s.reserve array n).length = raised s.length array n := by
  unfold raised
  by_cases h : n ≤ s.length array
  · rw [reserve_of_le h, Nat.max_eq_left h, Function.update_eq_self]
  · have hlt : s.length array < n := Nat.lt_of_not_le h
    rw [reserve_of_lt hlt, Nat.max_eq_right hlt.le]
    rfl

theorem WellTimed.resize {s : Store ι} (h : s.WellTimed) (array : List ι) (n : Nat) :
    (s.resize array n).WellTimed := by
  intro p
  change Function.update s.moved array (s.clock + 1) p ≤ s.clock + 1
  by_cases hp : p = array
  · rw [hp, Function.update_self]
  · rw [Function.update_of_ne hp]
    exact Nat.le_succ_of_le (h p)

theorem WellTimed.reserve {s : Store ι} (h : s.WellTimed) (array : List ι) (n : Nat) :
    (s.reserve array n).WellTimed := by
  unfold Store.reserve
  split
  · exact h
  · exact h.resize array n

theorem clock_le_reserve (s : Store ι) (array : List ι) (n : Nat) :
    s.clock ≤ (s.reserve array n).clock := by
  unfold Store.reserve
  split
  · exact Nat.le_refl _
  · exact Nat.le_succ _

/-- **What a growth breaks**: the pointers to elements that lie below the array. -/
theorem live_resize_iff {s : Store ι} {pointer : Pointer ι} (hpointer : pointer.taken ≤ s.clock)
    (array : List ι) (n : Nat) :
    (s.resize array n).Live pointer ↔ s.Live pointer ∧ ¬array <+: pointer.path := by
  have hmoved : (s.resize array n).moved = Function.update s.moved array (s.clock + 1) := rfl
  constructor
  · intro hlive
    have hnot : ¬array <+: pointer.path := by
      intro hprefix
      have := hlive array hprefix
      rw [hmoved, Function.update_self] at this
      omega
    refine ⟨fun p hp => ?_, hnot⟩
    have hne : p ≠ array := by
      rintro rfl
      exact hnot hp
    have hle := hlive p hp
    rwa [hmoved, Function.update_of_ne hne] at hle
  · rintro ⟨hlive, hnot⟩ p hp
    have hne : p ≠ array := by
      rintro rfl
      exact hnot hp
    rw [hmoved, Function.update_of_ne hne]
    exact hlive p hp

end Store

/-! ## Runs of requests -/

/-- What is asked of the arrays: a length, or a pointer to an element. -/
inductive Request (ι : Type) where
  | reserve (array : List ι) (n : Nat)
  | take (path : List ι)
  deriving DecidableEq, Repr

variable [DecidableEq ι]

/-- The arrays and the pointers after a list of requests. -/
def run : Store ι → List (Request ι) → Store ι × List (Pointer ι)
  | s, [] => (s, [])
  | s, .reserve array n :: rest => run (s.reserve array n) rest
  | s, .take path :: rest => ((run s rest).1, s.take path :: (run s rest).2)

theorem run_append (s : Store ι) (before after : List (Request ι)) :
    run s (before ++ after) =
      ((run (run s before).1 after).1, (run s before).2 ++ (run (run s before).1 after).2) := by
  induction before generalizing s with
  | nil => rfl
  | cons request rest ih =>
      cases request with
      | reserve array n => exact ih (s.reserve array n)
      | take path => simp only [List.cons_append, run, ih]

/-- The elements that pointers are taken to. -/
def takes : List (Request ι) → List (List ι)
  | [] => []
  | .reserve _ _ :: rest => takes rest
  | .take path :: rest => path :: takes rest

omit [DecidableEq ι] in
theorem takes_append (before after : List (Request ι)) :
    takes (before ++ after) = takes before ++ takes after := by
  induction before with
  | nil => rfl
  | cons request rest ih =>
      cases request with
      | reserve array n => exact ih
      | take path => rw [List.cons_append, takes, takes, ih, List.cons_append]

omit [DecidableEq ι] in
theorem takes_flatMap {α : Type} (items : List α) (asked : α → List (Request ι)) :
    takes (items.flatMap asked) = items.flatMap fun item => takes (asked item) := by
  induction items with
  | nil => rfl
  | cons item rest ih => rw [List.flatMap_cons, takes_append, ih, List.flatMap_cons]

omit [DecidableEq ι] in
theorem mem_takes {requests : List (Request ι)} {path : List ι} :
    path ∈ takes requests ↔ .take path ∈ requests := by
  induction requests with
  | nil => simp only [takes, List.not_mem_nil]
  | cons request rest ih =>
      cases request with
      | reserve array n => simp only [takes, ih, List.mem_cons, reduceCtorEq, false_or]
      | take path' => simp only [takes, ih, List.mem_cons, Request.take.injEq]

theorem map_path_run (s : Store ι) (requests : List (Request ι)) :
    (run s requests).2.map Pointer.path = takes requests := by
  induction requests generalizing s with
  | nil => rfl
  | cons request rest ih =>
      cases request with
      | reserve array n => exact ih (s.reserve array n)
      | take path => rw [run, List.map_cons, ih, takes, Store.take]

/-- The requests in order, against the lengths at the time and the elements held by pointers:
no array grows around an element that is held. -/
def Steady : (List ι → Nat) → List (List ι) → List (Request ι) → Prop
  | _, _, [] => True
  | length, held, .reserve array n :: rest =>
      (length array < n → ∀ path ∈ held, ¬array <+: path) ∧
        Steady (Store.raised length array n) held rest
  | length, held, .take path :: rest => Steady length (path :: held) rest

/-- A pointer that is broken stays so. -/
theorem live_of_run_live {s : Store ι} {requests : List (Request ι)} {pointer : Pointer ι}
    (hpointer : pointer.taken ≤ s.clock) (hlive : (run s requests).1.Live pointer) :
    s.Live pointer := by
  induction requests generalizing s with
  | nil => exact hlive
  | cons request rest ih =>
      cases request with
      | take path => exact ih hpointer hlive
      | reserve array n =>
          rw [run] at hlive
          by_cases hn : n ≤ s.length array
          · rw [Store.reserve_of_le hn] at hlive
            exact ih hpointer hlive
          · rw [Store.reserve_of_lt (Nat.lt_of_not_le hn)] at hlive
            have hthen := ih (Nat.le_succ_of_le hpointer) hlive
            exact ((Store.live_resize_iff hpointer array n).mp hthen).1

/-- The pointers that are held when an array is asked for a length. -/
theorem live_reserve_iff {s : Store ι} {held : List (Pointer ι)}
    (hheld : ∀ pointer ∈ held, pointer.taken ≤ s.clock ∧ s.Live pointer) (array : List ι)
    (n : Nat) :
    (∀ pointer ∈ held, (s.reserve array n).Live pointer) ↔
      (s.length array < n → ∀ path ∈ held.map Pointer.path, ¬array <+: path) := by
  simp only [List.forall_mem_map]
  by_cases hn : n ≤ s.length array
  · rw [Store.reserve_of_le hn]
    have hidle : ¬s.length array < n := Nat.not_lt_of_le hn
    simp only [hidle, false_implies, iff_true]
    exact fun pointer hmem => (hheld pointer hmem).2
  · have hlt : s.length array < n := Nat.lt_of_not_le hn
    rw [Store.reserve_of_lt hlt]
    constructor
    · intro hlive _ pointer hmem
      exact ((Store.live_resize_iff (hheld pointer hmem).1 array n).mp (hlive pointer hmem)).2
    · intro hapart pointer hmem
      exact (Store.live_resize_iff (hheld pointer hmem).1 array n).mpr
        ⟨(hheld pointer hmem).2, hapart hlt pointer hmem⟩

/-- **Which pointers are good after a run.** The pointers held before and those taken on the way
are all live at the end exactly when the requests are steady. -/
theorem run_live_iff {s : Store ι} (h : s.WellTimed) (held : List (Pointer ι))
    (hheld : ∀ pointer ∈ held, pointer.taken ≤ s.clock ∧ s.Live pointer)
    (requests : List (Request ι)) :
    (∀ pointer ∈ held ++ (run s requests).2, (run s requests).1.Live pointer) ↔
      Steady s.length (held.map Pointer.path) requests := by
  induction requests generalizing s held with
  | nil =>
      simp only [run, List.append_nil, Steady, iff_true]
      exact fun pointer hmem => (hheld pointer hmem).2
  | cons request rest ih =>
      cases request with
      | take path =>
          have hheld' : ∀ pointer ∈ s.take path :: held,
              pointer.taken ≤ s.clock ∧ s.Live pointer := by
            intro pointer hmem
            rcases List.mem_cons.mp hmem with rfl | hmem
            · exact ⟨Nat.le_refl _, h.live_take path⟩
            · exact hheld pointer hmem
          have hrest := ih h (s.take path :: held) hheld'
          rw [show Steady s.length (held.map Pointer.path) (.take path :: rest) =
            Steady s.length ((s.take path :: held).map Pointer.path) rest from rfl, ← hrest]
          simp only [run, List.mem_append, List.mem_cons, List.cons_append]
          constructor
          · rintro hall pointer (rfl | hmem | hmem)
            · exact hall _ (Or.inr (Or.inl rfl))
            · exact hall _ (Or.inl hmem)
            · exact hall _ (Or.inr (Or.inr hmem))
          · rintro hall pointer (hmem | rfl | hmem)
            · exact hall _ (Or.inr (Or.inl hmem))
            · exact hall _ (Or.inl rfl)
            · exact hall _ (Or.inr (Or.inr hmem))
      | reserve array n =>
          simp only [Steady, run]
          rw [← Store.reserve_length, ← live_reserve_iff hheld]
          have htaken : ∀ pointer ∈ held, pointer.taken ≤ (s.reserve array n).clock :=
            fun pointer hmem => Nat.le_trans (hheld pointer hmem).1 (s.clock_le_reserve array n)
          constructor
          · intro hall
            have hlive : ∀ pointer ∈ held, (s.reserve array n).Live pointer := fun pointer hmem =>
              live_of_run_live (htaken pointer hmem) (hall pointer (List.mem_append_left _ hmem))
            exact ⟨hlive, (ih (h.reserve array n) held
              fun pointer hmem => ⟨htaken pointer hmem, hlive pointer hmem⟩).mp hall⟩
          · rintro ⟨hlive, hsteady⟩
            exact (ih (h.reserve array n) held
              fun pointer hmem => ⟨htaken pointer hmem, hlive pointer hmem⟩).mpr hsteady

/-! ## Batches

Requests often come in batches that are sound by themselves: what a batch takes lies below
arrays that it has asked for before. Then only the batches matter.
-/

/-- The lengths after a batch. -/
def raisedBy : (List ι → Nat) → List (Request ι) → List ι → Nat
  | length, [] => length
  | length, .reserve array n :: rest => raisedBy (Store.raised length array n) rest
  | length, .take _ :: rest => raisedBy length rest

/-- The elements that are held after a batch. -/
def takenBy : List (List ι) → List (Request ι) → List (List ι)
  | held, [] => held
  | held, .reserve _ _ :: rest => takenBy held rest
  | held, .take path :: rest => takenBy (path :: held) rest

omit [DecidableEq ι] in
theorem mem_takenBy {held : List (List ι)} {batch : List (Request ι)} {path : List ι} :
    path ∈ takenBy held batch ↔ path ∈ held ∨ .take path ∈ batch := by
  induction batch generalizing held with
  | nil => simp only [takenBy, List.not_mem_nil, or_false]
  | cons request rest ih =>
      cases request with
      | reserve array n => simp only [takenBy, ih, List.mem_cons, reduceCtorEq, false_or]
      | take path' =>
          simp only [takenBy, ih, List.mem_cons, Request.take.injEq]
          tauto

theorem lt_raised_iff {length : List ι → Nat} {array p : List ι} {n m : Nat} :
    Store.raised length array n p < m ↔ length p < m ∧ (p = array → n < m) := by
  unfold Store.raised
  by_cases h : p = array
  · subst h
    simp only [Function.update_self, Nat.max_lt, true_implies]
  · simp only [Function.update_of_ne h, h, false_implies, and_true]

theorem lt_raisedBy_iff {length : List ι → Nat} {batch : List (Request ι)} {p : List ι} {m : Nat} :
    raisedBy length batch p < m ↔ length p < m ∧ ∀ n, .reserve p n ∈ batch → n < m := by
  induction batch generalizing length with
  | nil => simp only [raisedBy, List.not_mem_nil, false_implies, implies_true, and_true]
  | cons request rest ih =>
      cases request with
      | take path => simp only [raisedBy, ih, List.mem_cons, reduceCtorEq, false_or]
      | reserve array n =>
          simp only [raisedBy, ih, lt_raised_iff, List.mem_cons, Request.reserve.injEq]
          constructor
          · rintro ⟨⟨hlength, hn⟩, hrest⟩
            refine ⟨hlength, ?_⟩
            rintro k (⟨rfl, rfl⟩ | hk)
            · exact hn rfl
            · exact hrest k hk
          · rintro ⟨hlength, hall⟩
            exact ⟨⟨hlength, fun hp => hall n (Or.inl ⟨hp, rfl⟩)⟩, fun k hk => hall k (Or.inr hk)⟩

theorem steady_append {length : List ι → Nat} {held : List (List ι)}
    {batch rest : List (Request ι)} :
    Steady length held (batch ++ rest) ↔
      Steady length held batch ∧ Steady (raisedBy length batch) (takenBy held batch) rest := by
  induction batch generalizing length held with
  | nil => simp only [List.nil_append, Steady, raisedBy, takenBy, true_and]
  | cons request batch ih =>
      cases request with
      | take path => exact ih
      | reserve array n => simp only [List.cons_append, Steady, raisedBy, takenBy, ih, and_assoc]

/-- The second request does not concern an array around the element of the first. -/
def Apart : Request ι → Request ι → Prop
  | .take path, .reserve array _ => ¬array <+: path
  | _, _ => True

/-- A batch that does not break its own pointers, whatever the lengths. -/
def Tidy (batch : List (Request ι)) : Prop := batch.Pairwise Apart

/-- A tidy batch has to care for the elements held before it only. -/
theorem Tidy.steady_iff {batch : List (Request ι)} (h : Tidy batch) {length : List ι → Nat}
    {held : List (List ι)} :
    Steady length held batch ↔
      ∀ array n, .reserve array n ∈ batch → length array < n →
        ∀ path ∈ held, ¬array <+: path := by
  induction batch generalizing length held with
  | nil => simp only [Steady, List.not_mem_nil, false_implies, implies_true]
  | cons request rest ih =>
      obtain ⟨hfirst, hrest⟩ := List.pairwise_cons.mp h
      cases request with
      | take path =>
          rw [Steady, ih hrest]
          constructor
          · intro hall array n hmem hlt q hq
            rcases List.mem_cons.mp hmem with heq | hmem
            · cases heq
            · exact hall array n hmem hlt q (List.mem_cons_of_mem path hq)
          · intro hall array n hmem hlt q hq
            rcases List.mem_cons.mp hq with rfl | hq
            · exact hfirst _ hmem
            · exact hall array n (List.mem_cons_of_mem _ hmem) hlt q hq
      | reserve array n =>
          rw [Steady, ih hrest]
          constructor
          · rintro ⟨hhead, htail⟩ p m hmem hlt
            rcases List.mem_cons.mp hmem with heq | hmem
            · cases heq
              exact hhead hlt
            · by_cases hraised : Store.raised length array n p < m
              · exact htail p m hmem hraised
              · -- The first request asks for as much of the same array.
                have hsame : p = array ∧ m ≤ n := by
                  rw [lt_raised_iff] at hraised
                  by_cases hp : p = array
                  · exact ⟨hp, Nat.le_of_not_lt fun hn => hraised ⟨hlt, fun _ => hn⟩⟩
                  · exact absurd ⟨hlt, fun h => absurd h hp⟩ hraised
                obtain ⟨rfl, hm⟩ := hsame
                exact hhead (Nat.lt_of_lt_of_le hlt hm)
          · intro hall
            refine ⟨hall array n List.mem_cons_self, fun p m hmem hlt => ?_⟩
            exact hall p m (List.mem_cons_of_mem _ hmem) (lt_raised_iff.mp hlt).1

/-- Batch by batch: an array that a batch asks to be longer than it was at first, and longer
than any batch before asked, holds no element that is held or that a batch before has taken. -/
def Settled (length : List ι → Nat) (held : List (List ι)) (batches : List (List (Request ι))) :
    Prop :=
  ∀ earlier batch later, batches = earlier ++ batch :: later →
    ∀ array n, .reserve array n ∈ batch → length array < n →
      (∀ m, .reserve array m ∈ earlier.flatten → m < n) →
        ∀ path, (path ∈ held ∨ .take path ∈ earlier.flatten) → ¬array <+: path

theorem settled_cons {length : List ι → Nat} {held : List (List ι)} {batch : List (Request ι)}
    {batches : List (List (Request ι))} :
    Settled length held (batch :: batches) ↔
      (∀ array n, .reserve array n ∈ batch → length array < n →
        ∀ path ∈ held, ¬array <+: path) ∧
      Settled (raisedBy length batch) (takenBy held batch) batches := by
  constructor
  · intro h
    refine ⟨?_, ?_⟩
    · intro array n hmem hlt path hpath
      refine h [] batch batches rfl array n hmem hlt ?_ path (Or.inl hpath)
      intro m hm
      cases hm
    · rintro earlier later rest rfl array n hmem hlt hearlier path hpath
      obtain ⟨hlength, hbatch⟩ := lt_raisedBy_iff.mp hlt
      refine h (batch :: earlier) later rest rfl array n hmem hlength ?_ path ?_
      · intro m hm
        rw [List.flatten_cons, List.mem_append] at hm
        exact hm.elim (hbatch m) (hearlier m)
      · rw [List.flatten_cons, List.mem_append, ← or_assoc, ← mem_takenBy]
        exact hpath
  · rintro ⟨hfirst, hrest⟩ earlier batch' later heq array n hmem hlt hearlier path hpath
    cases earlier with
    | nil =>
        obtain ⟨rfl, rfl⟩ := List.cons.inj heq
        refine hfirst array n hmem hlt path (hpath.resolve_right ?_)
        intro h
        cases h
    | cons first earlier =>
        obtain ⟨rfl, rfl⟩ := List.cons.inj heq
        rw [List.flatten_cons] at hearlier hpath
        refine hrest earlier batch' later rfl array n hmem ?_ ?_ path ?_
        · exact lt_raisedBy_iff.mpr ⟨hlt, fun m hm => hearlier m (List.mem_append_left _ hm)⟩
        · exact fun m hm => hearlier m (List.mem_append_right _ hm)
        · rw [List.mem_append, ← or_assoc, ← mem_takenBy] at hpath
          exact hpath

/-- **Tidy batches are steady when they are settled.** -/
theorem steady_flatten_iff {batches : List (List (Request ι))} (h : ∀ batch ∈ batches, Tidy batch)
    {length : List ι → Nat} {held : List (List ι)} :
    Steady length held batches.flatten ↔ Settled length held batches := by
  induction batches generalizing length held with
  | nil =>
      simp only [List.flatten_nil, Steady, true_iff]
      intro earlier batch later heq
      simp only [List.nil_eq, List.append_eq_nil_iff, reduceCtorEq, and_false] at heq
  | cons batch batches ih =>
      rw [List.flatten_cons, steady_append, settled_cons,
        (h batch List.mem_cons_self).steady_iff,
        ih fun b hb => h b (List.mem_cons_of_mem batch hb)]

end Relocation
