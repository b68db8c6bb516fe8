/-
**Spans and their free lists in memory.**

A span (`mspan`) is a run of pages carved into equal slots.  Its free slots form an intrusive
singly linked list: the first word of each free slot holds the address of the next one, and `0`
ends the list.  This module models memory as a map from addresses to words, the span record
with the fields the central free lists read and write, and the three ways the allocator touches
a span's slots:

* `mCentral_Grow` carves a fresh run into a list of all its slots (`GoRuntime.mCentralGrow`);
* `mallocgc` pops the head of the list (`GoRuntime.MSpan.pop`);
* `mCentral_FreeSpan` splices a list of swept objects back in front (`GoRuntime.MSpan.splice`).

The invariant of a span, `GoRuntime.SpanOK`, says that its free list, read out of memory, and
the slots currently handed out are together a permutation of its slots, and that `s.ref` counts
the slots handed out.  Each operation has one lemma saying it keeps `SpanOK`; the machine of
`GoRuntime.Central.Machine` cites only those.

Main definitions:

* `GoRuntime.MSpan`, `GoRuntime.MSpan.slots`, `GoRuntime.MSpan.cap`;
* `GoRuntime.Chain` — the list read from memory by following next pointers;
* `GoRuntime.SpanOK` — **the slot partition of a span**.

Main results:

* `GoRuntime.spanOK_mCentralGrow`, `GoRuntime.SpanOK.pop`, `GoRuntime.SpanOK.splice`,
  `GoRuntime.SpanOK.frame` — the three operations and writes to anything but free slots keep
  the partition;
* `GoRuntime.SpanOK.ref_add_length` — `s.ref` plus the free-list length is the capacity.
-/

import GoRuntime.SizeClass
import Mathlib.Data.List.Perm.Basic
import Mathlib.Data.List.Nodup
import Mathlib.Data.UInt

set_option autoImplicit false

namespace GoRuntime

/-! ### The span record -/

/-- The fields of `mspan` that the central free lists and `mallocgc` use.  `freelist` is a
`gclinkptr`, with `0` for nil; `ref` is the `uint16` count of objects handed out. -/
structure MSpan where
  start : ℕ
  npages : ℕ
  sizeclass : ℕ
  elemsize : ℕ
  freelist : ℕ
  ref : UInt16
  limit : ℕ
  incache : Bool
  sweepgen : UInt32
deriving DecidableEq

/-- `s.base()`: the address of the first page. -/
def MSpan.base (s : MSpan) : ℕ := s.start <<< pageShift

/-- `cap := int32((s.npages << _PageShift) / s.elemsize)`: how many objects the run holds. -/
def MSpan.cap (s : MSpan) : ℕ := (s.npages <<< pageShift) / s.elemsize

/-- The addresses `base, base + size, …` of `n` consecutive slots. -/
def slotList (size : ℕ) : ℕ → ℕ → List ℕ
  | 0, _ => []
  | n + 1, base => base :: slotList size n (base + size)

/-- The slots of a span. -/
def MSpan.slots (s : MSpan) : List ℕ := slotList s.elemsize s.cap s.base

@[simp] theorem slotList_zero (size base : ℕ) : slotList size 0 base = [] := rfl

@[simp] theorem slotList_succ (size n base : ℕ) :
    slotList size (n + 1) base = base :: slotList size n (base + size) := rfl

theorem mem_slotList {size n base a : ℕ} :
    a ∈ slotList size n base ↔ ∃ i < n, a = base + i * size := by
  induction n generalizing base with
  | zero => simp
  | succ n ih =>
      simp only [slotList_succ, List.mem_cons, ih]
      constructor
      · rintro (rfl | ⟨i, hi, rfl⟩)
        · exact ⟨0, by omega, by simp⟩
        · exact ⟨i + 1, by omega, by ring⟩
      · rintro ⟨i, hi, rfl⟩
        cases i with
        | zero => simp
        | succ i => exact .inr ⟨i, by omega, by ring⟩

theorem le_of_mem_slotList {size n base a : ℕ} (h : a ∈ slotList size n base) : base ≤ a := by
  obtain ⟨i, -, rfl⟩ := mem_slotList.1 h
  omega

/-- Every slot of the list starts before `base + n * size`. -/
theorem lt_of_mem_slotList {size n base a : ℕ} (h : a ∈ slotList size n base) :
    a + size ≤ base + n * size := by
  obtain ⟨i, hi, rfl⟩ := mem_slotList.1 h
  have := Nat.mul_le_mul_right size (Nat.succ_le_of_lt hi)
  rw [Nat.succ_mul] at this; omega

theorem slotList_nodup (size n base : ℕ) (hs : 0 < size) : (slotList size n base).Nodup := by
  induction n generalizing base with
  | zero => simp
  | succ n ih =>
      refine List.nodup_cons.2 ⟨fun h => ?_, ih _⟩
      have := le_of_mem_slotList h
      omega

/-- Two slots of one list are equal or `size` apart. -/
theorem slotList_disjoint {size n base a b : ℕ} (ha : a ∈ slotList size n base)
    (hb : b ∈ slotList size n base) (hab : a ≠ b) : a + size ≤ b ∨ b + size ≤ a := by
  obtain ⟨i, -, rfl⟩ := mem_slotList.1 ha
  obtain ⟨j, -, rfl⟩ := mem_slotList.1 hb
  rcases Nat.lt_or_gt_of_ne (show i ≠ j by rintro rfl; exact hab rfl) with h | h
  · have := Nat.mul_le_mul_right size (Nat.succ_le_of_lt h)
    rw [Nat.succ_mul] at this; omega
  · have := Nat.mul_le_mul_right size (Nat.succ_le_of_lt h)
    rw [Nat.succ_mul] at this; omega

/-! ### Lists in memory -/

/-- `Chain mem p l`: following next pointers through `mem` from `p` visits exactly `l`, none of
them nil, and then reaches `0`. -/
def Chain (mem : ℕ → ℕ) : ℕ → List ℕ → Prop
  | p, [] => p = 0
  | p, a :: l => p = a ∧ a ≠ 0 ∧ Chain mem (mem a) l

@[simp] theorem chain_nil {mem : ℕ → ℕ} {p : ℕ} : Chain mem p [] ↔ p = 0 := Iff.rfl

@[simp] theorem chain_cons {mem : ℕ → ℕ} {p a : ℕ} {l : List ℕ} :
    Chain mem p (a :: l) ↔ p = a ∧ a ≠ 0 ∧ Chain mem (mem a) l := Iff.rfl

/-- A chain only reads the next words of its own entries. -/
theorem Chain.frame {mem mem' : ℕ → ℕ} {p : ℕ} {l : List ℕ} (h : Chain mem p l)
    (heq : ∀ a ∈ l, mem' a = mem a) : Chain mem' p l := by
  induction l generalizing p with
  | nil => exact h
  | cons a l ih =>
      refine ⟨h.1, h.2.1, ?_⟩
      rw [heq a (List.mem_cons_self _ _)]
      exact ih h.2.2 fun b hb => heq b (List.mem_cons_of_mem _ hb)

/-- The list a chain visits is determined by memory and its head. -/
theorem Chain.unique {mem : ℕ → ℕ} {p : ℕ} {l l' : List ℕ} (h : Chain mem p l)
    (h' : Chain mem p l') : l = l' := by
  induction l generalizing p l' with
  | nil => cases l' with
    | nil => rfl
    | cons b l' => exact absurd (h'.1.symm.trans h) h'.2.1
  | cons a l ih => cases l' with
    | nil => exact absurd (h.1.symm.trans h') h.2.1
    | cons b l' =>
        obtain rfl : a = b := h.1.symm.trans h'.1
        rw [ih h.2.2 h'.2.2]

/-- `Linked mem objs`: each object's first word points at the next object of the list; what
the last one holds is not constrained.  This is what the sweeper hands `mCentral_FreeSpan`
between `start` and `end`. -/
def Linked (mem : ℕ → ℕ) : List ℕ → Prop
  | [] => True
  | [_] => True
  | a :: b :: l => mem a = b ∧ Linked mem (b :: l)

/-- Pointing the last object of a linked list at a chain gives one chain through both. -/
theorem Linked.chain_append {mem : ℕ → ℕ} {fl : List ℕ} {head : ℕ} :
    ∀ (objs : List ℕ) (hne : objs ≠ []), Linked mem objs → objs.Nodup → (∀ a ∈ objs, a ≠ 0) →
    (∀ a ∈ objs, a ∉ fl) → Chain mem head fl →
    Chain (Function.update mem (objs.getLast hne) head) (objs.head hne) (objs ++ fl)
  | [a], _, _, _, hz, hfl, hc => by
      refine ⟨rfl, hz a (by simp), ?_⟩
      simp only [List.getLast_singleton, Function.update_same]
      exact hc.frame fun b hb => Function.update_noteq (by
        rintro rfl; exact hfl b (by simp) hb) _ _
  | a :: b :: l, _, hl, hnd, hz, hfl, hc => by
      obtain ⟨hab, hl⟩ := hl
      have ih := Linked.chain_append (b :: l) (List.cons_ne_nil _ _) hl
        (List.nodup_cons.1 hnd).2 (fun x hx => hz x (List.mem_cons_of_mem _ hx))
        (fun x hx => hfl x (List.mem_cons_of_mem _ hx)) hc
      have hlast : (a :: b :: l).getLast (List.cons_ne_nil _ _) = (b :: l).getLast
          (List.cons_ne_nil _ _) := List.getLast_cons _
      have hna : a ≠ (b :: l).getLast (List.cons_ne_nil _ _) := fun h =>
        (List.nodup_cons.1 hnd).1 (h ▸ List.getLast_mem _)
      refine ⟨rfl, hz a (by simp), ?_⟩
      rw [hlast, Function.update_noteq hna, hab]
      exact ih

/-! ### The slot partition -/

/-- **The slot partition of a span**, with `live` the slots handed out and not yet freed.
The free list read from memory and `live` together are a permutation of the slots, so each
slot is either free, exactly once on an acyclic nil-terminated list, or handed out; `s.ref`
counts the handed-out slots.  The class facts (`ClassOK`) and a non-zero start page come from
the carving. -/
structure SpanOK (mem : ℕ → ℕ) (s : MSpan) (live : List ℕ) : Prop where
  elemsize_ge : 8 ≤ s.elemsize
  cap_pos : 0 < s.cap
  cap_lt : s.cap < 2 ^ 16
  start_pos : 0 < s.start
  limit_eq : s.limit = s.base + s.elemsize * s.cap
  free : ∃ fl, Chain mem s.freelist fl ∧ (fl ++ live).Perm s.slots
  ref_eq : s.ref.toNat = live.length

@[simp] theorem MSpan.length_slots (s : MSpan) : s.slots.length = s.cap := by
  have : ∀ size n base, (slotList size n base).length = n := by
    intro size n; induction n <;> simp [*]
  exact this _ _ _

namespace SpanOK

variable {mem : ℕ → ℕ} {s : MSpan} {live : List ℕ}

theorem slots_nodup (h : SpanOK mem s live) : s.slots.Nodup :=
  slotList_nodup _ _ _ (by have := h.elemsize_ge; omega)

theorem base_pos (h : SpanOK mem s live) : 0 < s.base := by
  have := h.start_pos
  simp only [MSpan.base, shiftLeft_pageShift, pageSize]
  omega

/-- Free list and live slots are disjoint and duplicate-free. -/
theorem nodup_append {fl : List ℕ} (h : SpanOK mem s live) (hp : (fl ++ live).Perm s.slots) :
    (fl ++ live).Nodup := hp.nodup_iff.2 h.slots_nodup

theorem live_subset (h : SpanOK mem s live) : ∀ a ∈ live, a ∈ s.slots := by
  obtain ⟨fl, -, hp⟩ := h.free
  exact fun a ha => hp.subset (List.mem_append_right _ ha)

/-- **`s.ref` plus the length of the free list is the capacity.** -/
theorem ref_add_length {fl : List ℕ} (h : SpanOK mem s live) (hc : Chain mem s.freelist fl) :
    s.ref.toNat + fl.length = s.cap := by
  obtain ⟨fl', hc', hp⟩ := h.free
  obtain rfl := hc.unique hc'
  have := hp.length_eq
  rw [List.length_append, MSpan.length_slots] at this
  rw [h.ref_eq]
  omega

/-- Memory that changes only outside the free slots leaves the partition as it is. -/
theorem frame {mem' : ℕ → ℕ} (h : SpanOK mem s live)
    (heq : ∀ a ∈ s.slots, a ∉ live → mem' a = mem a) : SpanOK mem' s live := by
  obtain ⟨fl, hc, hp⟩ := h.free
  refine { h with free := ⟨fl, hc.frame fun a ha => heq a ?_ ?_, hp⟩ }
  · exact hp.subset (List.mem_append_left _ ha)
  · exact List.disjoint_of_nodup_append (h.nodup_append hp) ha

end SpanOK

/-! ### Carving, popping and splicing -/

/-- The loop of `mCentral_Grow` after its first slot: `k` more rounds of `p += size;
tail.ptr().next = gclinkptr(p); tail = gclinkptr(p)`, then `tail.ptr().next = 0`. -/
def carve (size : ℕ) : ℕ → ℕ → (ℕ → ℕ) → (ℕ → ℕ)
  | 0, tail, mem => Function.update mem tail 0
  | k + 1, tail, mem => carve size k (tail + size) (Function.update mem tail (tail + size))

/-- Carving writes only the slots it carves. -/
theorem carve_other (size : ℕ) : ∀ (k tail : ℕ) (mem : ℕ → ℕ) (a : ℕ),
    a ∉ slotList size (k + 1) tail → carve size k tail mem a = mem a
  | 0, tail, mem, a, h => Function.update_noteq (by simpa using h) _ _
  | k + 1, tail, mem, a, h => by
      simp only [slotList_succ, List.mem_cons, not_or] at h
      rw [carve, carve_other size k _ _ a (by simpa using h.2),
        Function.update_noteq h.1]

/-- **The carved list**: from `tail`, memory now leads through every slot and ends in nil. -/
theorem carve_chain (size : ℕ) (hs : 0 < size) : ∀ (k tail : ℕ) (mem : ℕ → ℕ), 0 < tail →
    Chain (carve size k tail mem) tail (slotList size (k + 1) tail)
  | 0, tail, mem, ht => by simp [carve]; omega
  | k + 1, tail, mem, ht => by
      have hnot : tail ∉ slotList size (k + 1) (tail + size) := fun h => by
        have := le_of_mem_slotList h; omega
      refine ⟨rfl, by omega, ?_⟩
      rw [carve, carve_other size k _ _ _ hnot, Function.update_same]
      exact carve_chain size hs k (tail + size) _ (by omega)

/-- Modelled from the spec: `mHeap_Alloc` (mheap.go, not in the source) hands out the fresh
run of `npages` pages at page `start`, as a span of class `sizeclass` whose objects have the
class's size, with no free list and no objects handed out, stamped with the heap's current
sweep generation `sg`. -/
def mHeapAlloc (sc : SizeClasses) (start npages sizeclass : ℕ) (sg : UInt32) : MSpan :=
  { start, npages, sizeclass, elemsize := sc.classToSize sizeclass, freelist := 0, ref := 0,
    limit := 0, incache := false, sweepgen := sg }

/-- `mCentral_Grow` for class `c`, with `mHeap_Alloc` returning the run at page `start`: carve
the run into `n = (npages << _PageShift) / size` slots, set `s.limit = p + size*n` and the free
list. -/
def mCentralGrow (sc : SizeClasses) (c start : ℕ) (sg : UInt32) (mem : ℕ → ℕ) :
    Except String ((ℕ → ℕ) × MSpan) :=
  let npages := sc.classToAllocnpages c
  let size := sc.classToSize c
  let n := (npages <<< pageShift) / size
  let s := mHeapAlloc sc start npages c sg
  let p := s.start <<< pageShift
  let mem := carve size (n - 1) p mem
  if s.freelist ≠ 0 then .error "freelist not empty"
  else .ok (mem, { s with limit := p + size * n, freelist := p })

/-- **A grown span is partitioned**: for every class of the table and every non-zero start page,
`mCentral_Grow` succeeds, all slots are on the free list, and memory outside the slots is
untouched. -/
theorem spanOK_mCentralGrow (sc : SizeClasses) {c : ℕ} (hc : 0 < c) (hc' : c < numSizeClasses)
    {start : ℕ} (hstart : 0 < start) (sg : UInt32) (mem : ℕ → ℕ) :
    ∃ mem' s, mCentralGrow sc c start sg mem = .ok (mem', s) ∧ SpanOK mem' s [] ∧
      (∀ a, a ∉ s.slots → mem' a = mem a) ∧
      s = { mHeapAlloc sc start (sc.classToAllocnpages c) c sg with
        limit := s.base + s.elemsize * s.cap, freelist := s.base } := by
  obtain ⟨h8, hle, hcap⟩ := sc.classOK c hc hc'
  set size := sc.classToSize c
  set npages := sc.classToAllocnpages c
  have hn : 0 < npages * pageSize / size := Nat.div_pos hle (by omega)
  have hp : 0 < start <<< pageShift := by
    simp only [shiftLeft_pageShift, pageSize]; omega
  refine ⟨_, _, rfl, ?_, ?_, rfl⟩
  · refine ⟨h8, ?_, ?_, hstart, ?_, ⟨_, carve_chain size (by omega) _ _ mem hp, ?_⟩, rfl⟩
    · simpa [MSpan.cap, mHeapAlloc] using hn
    · simpa [MSpan.cap, mHeapAlloc] using hcap
    · simp [MSpan.cap, MSpan.base, mHeapAlloc, size]
    · simp only [List.append_nil, MSpan.slots, MSpan.cap, MSpan.base, mHeapAlloc,
        shiftLeft_pageShift]
      rw [Nat.sub_add_cancel hn]
  · intro a ha
    refine carve_other size _ _ mem a ?_
    simpa [MSpan.slots, MSpan.cap, MSpan.base, mHeapAlloc, Nat.sub_add_cancel hn] using ha

/-- The record `mCentral_Grow` returns: a span of the class, uncached, stamped with the
generation it was given, whose free list starts at the base of its run. -/
theorem mCentralGrow_fields {sc : SizeClasses} {c start : ℕ} {sg : UInt32} {mem mem' : ℕ → ℕ}
    {s : MSpan} (h : mCentralGrow sc c start sg mem = .ok (mem', s)) :
    s.sizeclass = c ∧ s.incache = false ∧ s.sweepgen = sg ∧ s.freelist = start <<< pageShift := by
  simp only [mCentralGrow, mHeapAlloc, ne_eq, not_true_eq_false, if_false, Except.ok.injEq,
    Prod.mk.injEq] at h
  obtain ⟨-, rfl⟩ := h
  exact ⟨rfl, rfl, rfl, rfl⟩

/-- The pop of `mallocgc`: `v := s.freelist; s.freelist = v.ptr().next; s.ref++`, returning
`v`. -/
def MSpan.pop (mem : ℕ → ℕ) (s : MSpan) : ℕ × MSpan :=
  (s.freelist, { s with freelist := mem s.freelist, ref := s.ref + 1 })

/-- The first half of `mCentral_FreeSpan`, done before it takes `c.lock`:
`end.ptr().next = s.freelist; s.freelist = start; s.ref -= uint16(n)`. -/
def MSpan.splice (mem : ℕ → ℕ) (s : MSpan) (start end_ n : ℕ) : (ℕ → ℕ) × MSpan :=
  (Function.update mem end_ s.freelist,
    { s with freelist := start, ref := s.ref - UInt16.ofNat n })

/-! `uint16` arithmetic on `s.ref`, read through `toNat`. -/

theorem toNat_uint16_ofNat (n : ℕ) : (UInt16.ofNat n).toNat = n % 2 ^ 16 := rfl

theorem toNat_uint16_add_one (x : UInt16) : (x + 1).toNat = (x.toNat + 1) % 2 ^ 16 := rfl

theorem toNat_uint16_sub (x y : UInt16) :
    (x - y).toNat = (2 ^ 16 - y.toNat + x.toNat) % 2 ^ 16 := rfl

namespace SpanOK

variable {mem : ℕ → ℕ} {s : MSpan} {live : List ℕ}

/-- **Popping keeps the partition**: the popped slot was free, and `s.ref++` does not wrap. -/
theorem pop (h : SpanOK mem s live) (hne : s.freelist ≠ 0) :
    s.freelist ∈ s.slots ∧ s.freelist ∉ live ∧
      (s.ref + 1).toNat = s.ref.toNat + 1 ∧ SpanOK mem (s.pop mem).2 (s.freelist :: live) := by
  obtain ⟨fl, hc, hp⟩ := h.free
  cases fl with
  | nil => exact absurd hc hne
  | cons v fl =>
      have hlen := h.ref_add_length hc
      obtain ⟨hv, -, hc'⟩ := hc
      have hnd := h.nodup_append hp
      have href : (s.ref + 1).toNat = s.ref.toNat + 1 := by
        rw [toNat_uint16_add_one]
        have := h.cap_lt
        simp only [List.length_cons] at hlen
        omega
      refine ⟨hv ▸ hp.subset (by simp), fun hl => ?_, href, ?_⟩
      · rw [hv] at hl
        exact (List.nodup_cons.1 hnd).1 (List.mem_append_right _ hl)
      · refine { h with free := ⟨fl, by rw [MSpan.pop, hv]; exact hc', ?_⟩, ref_eq := ?_ }
        · rw [← hv] at hp; exact List.perm_middle.trans hp
        · simp [MSpan.pop, href, h.ref_eq]

/-- **Splicing swept objects keeps the partition**: for a non-empty list of distinct objects
handed out from `s` and linked by the sweeper, `FreeSpan`'s splice puts them back on the free
list, and `s.ref -= uint16(n)` does not wrap. -/
theorem splice (h : SpanOK mem s live) (objs : List ℕ) (hne : objs ≠ []) (hnd : objs.Nodup)
    (hsub : ∀ a ∈ objs, a ∈ live) (hl : Linked mem objs) :
    objs.length ≤ s.ref.toNat ∧
    SpanOK (s.splice mem (objs.head hne) (objs.getLast hne) objs.length).1
      (s.splice mem (objs.head hne) (objs.getLast hne) objs.length).2
      (live.filter (· ∉ objs)) := by
  obtain ⟨fl, hc, hp⟩ := h.free
  have hnd' := h.nodup_append hp
  have hdis : ∀ a ∈ objs, a ∉ fl := fun a ha hf =>
    List.disjoint_of_nodup_append hnd' hf (hsub a ha)
  have hz : ∀ a ∈ objs, a ≠ 0 := fun a ha => by
    have := le_of_mem_slotList (h.live_subset a (hsub a ha))
    have := h.base_pos
    omega
  have hle : objs.length ≤ live.length :=
    (List.subperm_of_subset hnd hsub).length_le
  have hsplit : (objs ++ live.filter (· ∉ objs)).Perm live := by
    have hf : (live.filter (· ∈ objs)).Perm objs :=
      (List.perm_ext_iff_of_nodup ((List.nodup_append.1 hnd').2.1.filter _) hnd).2
        fun a => by simpa using fun ha => hsub a ha
    refine (hf.symm.append_right _).trans ?_
    simpa using List.filter_append_perm (fun a => decide (a ∈ objs)) live
  refine ⟨h.ref_eq ▸ hle, { h with free := ⟨objs ++ fl, ?_, ?_⟩, ref_eq := ?_ }⟩
  · exact Linked.chain_append objs hne hl hnd hz hdis hc
  · have h1 : ((objs ++ fl) ++ live.filter (· ∉ objs)).Perm
        (fl ++ (objs ++ live.filter (· ∉ objs))) := by
      rw [← List.append_assoc]; exact List.perm_append_comm.append_right _
    exact (h1.trans (hsplit.append_left fl)).trans hp
  · have hlt := h.cap_lt
    have hcap : live.length ≤ s.cap := by
      have := hp.length_eq; simp at this; omega
    have hfl : (live.filter (· ∉ objs)).length + objs.length = live.length := by
      have := hsplit.length_eq; simp only [List.length_append] at this; omega
    simp only [MSpan.splice, toNat_uint16_sub, toNat_uint16_ofNat, h.ref_eq]
    omega

end SpanOK

end GoRuntime
