/-
**No slot is handed out twice.**

Over every run of the allocator machine, each span's slots are split into its free list, read
out of memory, and the slots handed out and not yet swept; `s.ref` counts the latter, so neither
`s.ref++` nor `s.ref -= n` wraps.  The page runs of distinct spans do not meet.  It follows that
a pop hands out a slot that no span has handed out, and that no two live objects overlap.

The invariant is `GoRuntime.SlotInv`.  Most steps touch only the lists, the owners and the
sweep stamps, and keep it by `GoRuntime.SlotInv.of_slotView`; the others are the carving of
`mCentral_Grow`, the pop, the splice of `mCentral_FreeSpan`, the return of an empty span to the
heap, and writes, which cannot reach a free slot (`GoRuntime.SlotInv.not_free_of_write`).

Main definitions:

* `GoRuntime.SlotInv` — the slot invariant of the whole heap.

Main results:

* `GoRuntime.slotInv_step`, `GoRuntime.slotInv_reachable` — every step keeps it;
* `GoRuntime.slot_partition` — **the partition of every span, fresh pops, and no overlap**.
-/

import GoRuntime.Central.Machine

set_option autoImplicit false

namespace GoRuntime

/-! ### The invariant -/

/-- The fields of a span its slot partition depends on. -/
def MSpan.slotView (sp : MSpan) : ℕ × ℕ × ℕ × ℕ × UInt16 × ℕ :=
  (sp.start, sp.npages, sp.elemsize, sp.freelist, sp.ref, sp.limit)

theorem SpanOK.of_slotView {mem : ℕ → ℕ} {sp sp' : MSpan} {live : List ℕ}
    (h : SpanOK mem sp live) (hv : sp'.slotView = sp.slotView) : SpanOK mem sp' live := by
  obtain ⟨_, _, _, _, _, _, _, _, _⟩ := sp
  obtain ⟨_, _, _, _, _, _, _, _, _⟩ := sp'
  simp only [MSpan.slotView, Prod.mk.injEq] at hv
  obtain ⟨rfl, rfl, rfl, rfl, rfl, rfl⟩ := hv
  exact ⟨h.elemsize_ge, h.cap_pos, h.cap_lt, h.start_pos, h.limit_eq, h.free, h.ref_eq⟩

/-- **The slot invariant**: every span of the table is partitioned, ids with no span have no
live slots, and distinct spans hold disjoint page runs. -/
structure SlotInv (st : Heap) : Prop where
  span_ok : ∀ s sp, st.spans s = some sp → SpanOK st.mem sp (st.live s)
  live_none : ∀ s, st.spans s = none → st.live s = []
  disjoint : ∀ s t sp tp, s ≠ t → st.spans s = some sp → st.spans t = some tp →
    PagesDisjoint sp.start sp.npages tp.start tp.npages

theorem slotInv_init (mem : ℕ → ℕ) (sg : UInt32) : SlotInv (Heap.init mem sg) :=
  ⟨by simp [Heap.init], fun _ _ => rfl, by simp [Heap.init]⟩

namespace SlotInv

variable {st st' : Heap}

/-- A step that keeps memory, live slots and every span's slot fields, and drops only spans
with no live slots, keeps the invariant. -/
theorem of_slotView (h : SlotInv st) (hmem : st'.mem = st.mem) (hlive : st'.live = st.live)
    (hsp : ∀ s sp', st'.spans s = some sp' →
      ∃ sp, st.spans s = some sp ∧ sp'.slotView = sp.slotView)
    (hnone : ∀ s, st'.spans s = none → st.live s = []) : SlotInv st' := by
  refine ⟨fun s sp' hs => ?_, fun s hs => hlive ▸ hnone s hs, fun s t sp' tp' hst hs ht => ?_⟩
  · obtain ⟨sp, hsp0, hv⟩ := hsp s sp' hs
    rw [hmem, hlive]
    exact (h.span_ok s sp hsp0).of_slotView hv
  · obtain ⟨sp, hs0, hv⟩ := hsp s sp' hs
    obtain ⟨tp, ht0, hw⟩ := hsp t tp' ht
    have := h.disjoint s t sp tp hst hs0 ht0
    simp only [MSpan.slotView, Prod.mk.injEq] at hv hw
    rwa [hv.1, hv.2.1, hw.1, hw.2.1]

/-- A span's slots lie inside its page run. -/
theorem slot_mem_pages {sp : MSpan} {a : ℕ} (ha : a ∈ sp.slots) :
    sp.start * pageSize ≤ a ∧ a + sp.elemsize ≤ (sp.start + sp.npages) * pageSize := by
  have hlo := le_of_mem_slotList ha
  have hhi := lt_of_mem_slotList ha
  have hcap : sp.cap * sp.elemsize ≤ sp.npages * pageSize := by
    simpa [MSpan.cap] using Nat.div_mul_le_self (sp.npages * pageSize) sp.elemsize
  simp only [MSpan.base, shiftLeft_pageShift] at hlo hhi
  exact ⟨hlo, by rw [add_mul]; omega⟩

/-- A slot that is free in some span. -/
def FreeSlot (st : Heap) (a : ℕ) : Prop :=
  ∃ t tp, st.spans t = some tp ∧ a ∈ tp.slots ∧ a ∉ st.live t

/-- Writes to anything but a free slot keep every span's partition. -/
theorem frame (h : SlotInv st) {mem' : ℕ → ℕ} (heq : ∀ a, FreeSlot st a → mem' a = st.mem a) :
    ∀ s sp, st.spans s = some sp → SpanOK mem' sp (st.live s) := fun s sp hs =>
  (h.span_ok s sp hs).frame fun a ha hl => heq a ⟨s, sp, hs, ha, hl⟩

/-- **A word inside a live object is not a free slot**, of its own span or of any other. -/
theorem not_free_of_write (h : SlotInv st) {s : ℕ} {sp : MSpan} {o a : ℕ}
    (hs : st.spans s = some sp) (ho : o ∈ st.live s) (ha : o ≤ a ∧ a < o + sp.elemsize) :
    ¬ FreeSlot st a := by
  rintro ⟨t, tp, ht, hat, hal⟩
  have hso := h.span_ok s sp hs
  have hoslot := hso.live_subset o ho
  by_cases hst : s = t
  · subst hst
    obtain rfl : tp = sp := Option.some_injective _ (ht.symm.trans hs)
    have hne : o ≠ a := fun e => hal (e ▸ ho)
    rcases slotList_disjoint hoslot hat hne with h1 | h1 <;> omega
  · have hd := h.disjoint s t sp tp hst hs ht
    have h1 := slot_mem_pages hoslot
    have h2 := slot_mem_pages hat
    have := hso.elemsize_ge
    unfold PagesDisjoint at hd
    rcases hd with hd | hd
    · have : (sp.start + sp.npages) * pageSize ≤ tp.start * pageSize :=
        Nat.mul_le_mul_right _ hd
      omega
    · have : (tp.start + tp.npages) * pageSize ≤ sp.start * pageSize :=
        Nat.mul_le_mul_right _ hd
      have := h.span_ok t tp ht |>.elemsize_ge
      omega

/-- Carving a run that no span holds writes no free slot. -/
theorem not_free_of_fresh (h : SlotInv st) {start npages a : ℕ}
    (hfresh : ∀ t tp, st.spans t = some tp → PagesDisjoint start npages tp.start tp.npages)
    (ha : start * pageSize ≤ a ∧ a < (start + npages) * pageSize) : ¬ FreeSlot st a := by
  rintro ⟨t, tp, ht, hat, -⟩
  have h2 := slot_mem_pages hat
  have := (h.span_ok t tp ht).elemsize_ge
  rcases hfresh t tp ht with hd | hd
  · have : (start + npages) * pageSize ≤ tp.start * pageSize := Nat.mul_le_mul_right _ hd
    omega
  · have : (tp.start + tp.npages) * pageSize ≤ start * pageSize := Nat.mul_le_mul_right _ hd
    omega

/-- **One span replaced.**  A step that changes the table and the live slots only at span `s`,
changes memory only where no slot is free, and leaves `s` partitioned and clear of the other
spans' pages (or drops it with no live slots), keeps the invariant. -/
theorem replace (h : SlotInv st) (s : ℕ)
    (hspans : ∀ t, t ≠ s → st'.spans t = st.spans t)
    (hlive : ∀ t, t ≠ s → st'.live t = st.live t)
    (hframe : ∀ a, FreeSlot st a → st'.mem a = st.mem a)
    (hs : ∀ sp', st'.spans s = some sp' → SpanOK st'.mem sp' (st'.live s) ∧
      ∀ t tp, t ≠ s → st.spans t = some tp → PagesDisjoint sp'.start sp'.npages tp.start tp.npages)
    (hnone : st'.spans s = none → st'.live s = []) : SlotInv st' := by
  refine ⟨fun t tp ht => ?_, fun t ht => ?_, fun t u tp up htu ht hu => ?_⟩
  · by_cases hts : t = s
    · subst hts; exact (hs tp ht).1
    · rw [hspans t hts] at ht
      rw [hlive t hts]
      exact h.frame hframe t tp ht
  · by_cases hts : t = s
    · subst hts; exact hnone ht
    · rw [hlive t hts]; exact h.live_none t (by rwa [hspans t hts] at ht)
  · by_cases hts : t = s
    · subst hts
      exact (hs tp ht).2 u up (Ne.symm htu) (by rwa [hspans u (Ne.symm htu)] at hu)
    · by_cases hus : u = s
      · subst hus
        have := (hs up hu).2 t tp hts (by rwa [hspans t hts] at ht)
        unfold PagesDisjoint at this ⊢; omega
      · rw [hspans t hts] at ht; rw [hspans u hus] at hu
        exact h.disjoint t u tp up htu ht hu

end SlotInv

/-! ### Steps that leave the slots alone -/

/-- `st'` has the memory, the live slots and the slot fields of every span of `st`, and no span
that `st` lacks. -/
structure SlotsAgree (st st' : Heap) : Prop where
  mem : st'.mem = st.mem
  live : st'.live = st.live
  spans : ∀ s sp', st'.spans s = some sp' → ∃ sp, st.spans s = some sp ∧ sp'.slotView = sp.slotView
  none : ∀ s, st'.spans s = none → st.spans s = none

namespace SlotsAgree

variable {st st' st'' : Heap}

theorem of_eq (hmem : st'.mem = st.mem) (hlive : st'.live = st.live)
    (hspans : st'.spans = st.spans) : SlotsAgree st st' :=
  ⟨hmem, hlive, fun _ sp h => ⟨sp, hspans ▸ h, rfl⟩, fun _ h => hspans ▸ h⟩

theorem refl (st : Heap) : SlotsAgree st st := of_eq rfl rfl rfl

theorem trans (h : SlotsAgree st st') (h' : SlotsAgree st' st'') : SlotsAgree st st'' := by
  refine ⟨h'.mem.trans h.mem, h'.live.trans h.live, fun s sp'' hs => ?_, fun s hs =>
    h.none s (h'.none s hs)⟩
  obtain ⟨sp', hs', hv'⟩ := h'.spans s sp'' hs
  obtain ⟨sp, hs0, hv⟩ := h.spans s sp' hs'
  exact ⟨sp, hs0, hv'.trans hv⟩

/-- Replacing a span's record by one with the same slot fields. -/
theorem setSpan {s : ℕ} {sp : MSpan} (sp' : MSpan) (hs : st.spans s = some sp)
    (hv : sp'.slotView = sp.slotView) : SlotsAgree st (st.setSpan s sp') := by
  refine ⟨rfl, rfl, fun t tp h => ?_, fun t h => ?_⟩
  · by_cases hts : t = s
    · subst hts; simp only [Heap.setSpan_spans, Function.update_same, Option.some.injEq] at h
      exact ⟨sp, hs, h ▸ hv⟩
    · simp only [Heap.setSpan_spans, Function.update_noteq hts] at h
      exact ⟨tp, h, rfl⟩
  · by_cases hts : t = s
    · subst hts; simp at h
    · simpa [Function.update_noteq hts] using h

theorem stamp (st : Heap) (s : ℕ) (g : UInt32) : SlotsAgree st (st.stamp s g) := by
  unfold Heap.stamp
  split
  · rename_i sp hs
    exact setSpan { sp with sweepgen := g } hs rfl
  · exact refl st

theorem setAlloc (st : Heap) (m c : ℕ) (v : Option ℕ) : SlotsAgree st (st.setAlloc m c v) :=
  of_eq rfl rfl rfl

theorem setOwner (st : Heap) (s : ℕ) (o : Owner) : SlotsAgree st (st.setOwner s o) :=
  of_eq rfl rfl rfl

theorem setRefill (st : Heap) (m : ℕ) (r : Refill) : SlotsAgree st (st.setRefill m r) :=
  of_eq rfl rfl rfl

theorem throw (st : Heap) (msg : String) : SlotsAgree st (st.throw msg) := of_eq rfl rfl rfl

theorem remove (st : Heap) (c s : ℕ) : SlotsAgree st (st.remove c s) := of_eq rfl rfl rfl

theorem moveToEmpty (st : Heap) (c s : ℕ) : SlotsAgree st (st.moveToEmpty c s) :=
  of_eq rfl rfl rfl

theorem moveToNonempty (st : Heap) (c s : ℕ) : SlotsAgree st (st.moveToNonempty c s) :=
  of_eq rfl rfl rfl

end SlotsAgree

theorem SlotInv.of_agree {st st' : Heap} (h : SlotInv st) (ha : SlotsAgree st st') :
    SlotInv st' :=
  h.of_slotView ha.mem ha.live ha.spans fun s hs => h.live_none s (ha.none s hs)

theorem slotsAgree_cacheSpanScan (st : Heap) (m c : ℕ) (sg : UInt32) :
    SlotsAgree st (cacheSpanScan st m c sg) := by
  unfold cacheSpanScan
  split
  · split
    · exact (((SlotsAgree.stamp _ _ _).trans (.moveToEmpty _ _ _)).trans (.setOwner _ _ _)).trans
        (.setRefill _ _ _)
    · exact ((SlotsAgree.moveToEmpty _ _ _).trans (.setOwner _ _ _)).trans (.setRefill _ _ _)
  · split
    · split
      · exact (((SlotsAgree.stamp _ _ _).trans (.moveToEmpty _ _ _)).trans (.setOwner _ _ _)).trans
          (.setRefill _ _ _)
      · exact .setRefill _ _ _
    · exact .setRefill _ _ _

theorem slotsAgree_afterSweep (st : Heap) (m : ℕ) (r : Refill) :
    SlotsAgree st (afterSweep st m r) := by
  unfold afterSweep
  repeat' split
  all_goals first
    | exact SlotsAgree.setRefill _ _ _
    | exact (SlotsAgree.setOwner _ _ _).trans (.setRefill _ _ _)

theorem slotsAgree_haveSpan (st : Heap) (m c s : ℕ) : SlotsAgree st (haveSpan st m c s) := by
  unfold haveSpan
  split
  · exact .refl _
  · rename_i sp hs
    split
    · exact .throw _ _
    split
    · exact .throw _ _
    exact (((SlotsAgree.setSpan { sp with incache := true } hs rfl).trans
      (.setOwner _ _ _)).trans (.setRefill _ _ _)).trans (.setAlloc _ _ _ _)

theorem slotsAgree_uncacheSpan (st : Heap) (m c s : ℕ) : SlotsAgree st (uncacheSpan st m c s) := by
  unfold uncacheSpan
  split
  · exact .refl _
  · rename_i sp hs
    have base : SlotsAgree st
        (((st.setSpan s { sp with incache := false }).setOwner s .central).setAlloc m c none) :=
      ((SlotsAgree.setSpan { sp with incache := false } hs rfl).trans (.setOwner _ _ _)).trans
        (.setAlloc _ _ _ _)
    split
    · exact base.trans (.throw _ _)
    split
    · exact base.trans (.moveToNonempty _ _ _)
    · exact base

/-! ### Steps that change slots -/

theorem slotInv_popSlot {st : Heap} (h : SlotInv st) {s : ℕ} {sp : MSpan}
    (hs : st.spans s = some sp) (hne : sp.freelist ≠ 0) : SlotInv (popSlot st s) := by
  have hok := (h.span_ok s sp hs).pop hne
  simp only [popSlot, hs]
  refine h.replace s (fun t ht => by simp [Function.update_noteq ht])
    (fun t ht => by simp [Function.update_noteq ht]) (fun _ _ => rfl) (fun sp' h' => ?_) (by simp)
  simp only [Heap.setLive_spans, Heap.setSpan_spans, Function.update_same,
    Option.some.injEq] at h'
  subst h'
  refine ⟨by simpa using hok.2.2.2, fun t tp ht htp => h.disjoint s t sp tp (Ne.symm ht) hs htp⟩

theorem slotInv_freeSpanSplice {st : Heap} (h : SlotInv st) {s : ℕ} {objs : List ℕ}
    (ho : FreeObjs st s objs) : SlotInv (st.freeSpanSplice s objs ho.ne_nil) := by
  unfold Heap.freeSpanSplice
  split
  · exact h
  rename_i sp hs
  split
  · exact h.of_agree (.throw _ _)
  have hok := ((h.span_ok s sp hs).splice objs ho.ne_nil ho.nodup ho.live ho.linked).2
  have hlast := ho.live _ (List.getLast_mem ho.ne_nil)
  refine h.replace s (fun t ht => by simp [Function.update_noteq ht])
    (fun t ht => by simp [Function.update_noteq ht]) (fun a ha => ?_) (fun sp' h' => ?_) (by simp)
  · simp only [Heap.setLive_mem, Heap.setSpan_mem, MSpan.splice]
    refine Function.update_noteq ?_ _ _
    rintro rfl
    have hsok := h.span_ok s sp hs
    exact h.not_free_of_write hs hlast ⟨le_rfl, by have := hsok.elemsize_ge; omega⟩ ha
  · simp only [Heap.setLive_spans, Heap.setSpan_spans, Function.update_same,
      Option.some.injEq] at h'
    subst h'
    exact ⟨by simpa using hok, fun t tp ht htp => h.disjoint s t sp tp (Ne.symm ht) hs htp⟩

theorem slotInv_grow (sc : SizeClasses) {st : Heap} (h : SlotInv st) {c start i : ℕ}
    {mem' : ℕ → ℕ} {sp : MSpan} (hc : 0 < c) (hc' : c < numSizeClasses) (hstart : 0 < start)
    (hi : st.spans i = none)
    (hfresh : ∀ t tp, st.spans t = some tp →
      PagesDisjoint start (sc.classToAllocnpages c) tp.start tp.npages)
    (hgrow : mCentralGrow sc c start st.sweepgen st.mem = .ok (mem', sp)) :
    SlotInv ({ st with mem := mem' }.setSpan i sp) := by
  obtain ⟨mem₁, sp₁, hg, hok, hout, hsp⟩ := spanOK_mCentralGrow sc hc hc' hstart st.sweepgen st.mem
  rw [hg] at hgrow
  obtain ⟨rfl, rfl⟩ := Prod.mk.inj (Except.ok.inj hgrow)
  have hpages : ∀ a ∈ sp₁.slots, start * pageSize ≤ a ∧ a < (start + sc.classToAllocnpages c) *
      pageSize := by
    intro a ha
    have := SlotInv.slot_mem_pages ha
    have hel : sp₁.elemsize = sc.classToSize c := by rw [hsp]; rfl
    rw [hsp] at this
    simp only [mHeapAlloc] at this
    have := hok.elemsize_ge
    omega
  refine h.replace i (fun t ht => by simp [Function.update_noteq ht]) (fun _ _ => rfl)
    (fun a ha => hout a fun has => h.not_free_of_fresh hfresh (hpages a has) ha)
    (fun sp' h' => ?_) (by simp)
  simp only [Heap.setSpan_spans, Function.update_same, Option.some.injEq] at h'
  subst h'
  refine ⟨by simpa [h.live_none i hi] using hok, fun t tp _ htp => ?_⟩
  rw [hsp]
  exact hfresh t tp htp

theorem slotInv_freeSpanLocked {st : Heap} (h : SlotInv st) (c s : ℕ) (w : Bool) :
    SlotInv (freeSpanLocked st c s w) := by
  have h1 : SlotsAgree st (if w then st.moveToNonempty c s else st) := by
    split
    · exact .moveToNonempty _ _ _
    · exact .refl _
  set st₁ := if w then st.moveToNonempty c s else st
  have h2 := h.of_agree (h1.trans ((SlotsAgree.stamp st₁ s st₁.sweepgen).trans
    (.setOwner _ s .central)))
  unfold freeSpanLocked
  simp only
  split
  · exact h2
  rename_i sp hs
  split
  · exact h2
  rename_i href
  refine h2.replace s (fun t ht => by simp [Function.update_noteq ht]) (fun _ _ => rfl)
    (fun _ _ => rfl) (fun sp' h' => by simp at h') (fun _ => ?_)
  have := (h2.span_ok s sp hs).ref_eq
  simp only [not_not] at href
  rw [href] at this
  exact List.eq_nil_of_length_eq_zero this.symm

theorem slotInv_write {st : Heap} (h : SlotInv st) {s : ℕ} {sp : MSpan} {o a : ℕ} (v : ℕ)
    (hs : st.spans s = some sp) (ho : o ∈ st.live s) (ha : o ≤ a ∧ a < o + sp.elemsize) :
    SlotInv { st with mem := Function.update st.mem a v } :=
  ⟨h.frame fun b hb => Function.update_noteq (fun e => h.not_free_of_write hs ho ha (by
      subst e; exact hb)) _ _,
    h.live_none, h.disjoint⟩

/-! ### Refills are for classes of the table -/

/-- The class a refill is for, `0` when idle. -/
def Refill.cls : Refill → ℕ
  | .idle => 0
  | .scan c _ => c
  | .sweepNonempty c _ _ => c
  | .sweepEmpty c _ _ => c
  | .grow c => c
  | .grown c _ => c
  | .havespan c _ => c
  | .popping c => c

/-- A refill phase for a class of the table, or none. -/
def Refill.ClassOK (r : Refill) : Prop := r = .idle ∨ (0 < r.cls ∧ r.cls < numSizeClasses)

/-- Every refill in progress is for a class of the table, so `mCentral_Grow` carves with a
class that `ClassOK`. -/
def RefillOK (st : Heap) : Prop := ∀ m, (st.refill m).ClassOK

theorem RefillOK.update {st st' : Heap} (h : RefillOK st) (m : ℕ) {r : Refill} (hr : r.ClassOK)
    (h' : st'.refill = Function.update st.refill m r) : RefillOK st' := by
  intro m'
  rw [h']
  by_cases hm : m' = m
  · subst hm; simpa using hr
  · rw [Function.update_noteq hm]; exact h m'

theorem RefillOK.update' {st st' : Heap} (h : RefillOK st) (m : ℕ)
    (hne : ∀ m', m' ≠ m → st'.refill m' = st.refill m') (hm : (st'.refill m).ClassOK) :
    RefillOK st' := by
  intro m'
  by_cases hm' : m' = m
  · subst hm'; exact hm
  · rw [hne m' hm']; exact h m'

theorem RefillOK.setRefill {st st' : Heap} (h : RefillOK st) (hst : st'.refill = st.refill)
    (m : ℕ) {r : Refill} (hr : r.ClassOK) : RefillOK (st'.setRefill m r) :=
  h.update m hr (by simp [hst])

theorem RefillOK.of_eq {st st' : Heap} (h : RefillOK st) (h' : st'.refill = st.refill) :
    RefillOK st' := fun m => h' ▸ h m

theorem refill_freeSpanSplice (st : Heap) (s : ℕ) (objs : List ℕ) (hne : objs ≠ []) :
    (st.freeSpanSplice s objs hne).refill = st.refill := by
  unfold Heap.freeSpanSplice; repeat' split
  all_goals simp

theorem refill_sweepPreserve (st : Heap) (c s : ℕ) (objs : List ℕ) (sg : UInt32) :
    (sweepPreserve st c s objs sg).refill = st.refill := by
  unfold sweepPreserve
  split
  · simp
  · simp only
    repeat' split
    all_goals simp [refill_freeSpanSplice]

theorem refill_uncacheSpan (st : Heap) (m c s : ℕ) : (uncacheSpan st m c s).refill = st.refill := by
  unfold uncacheSpan; repeat' split
  all_goals simp

theorem refill_freeSpanLocked (st : Heap) (c s : ℕ) (w : Bool) :
    (freeSpanLocked st c s w).refill = st.refill := by
  have h1 : (if w then st.moveToNonempty c s else st).refill = st.refill := by split_ifs <;> rfl
  unfold freeSpanLocked
  simp only
  split
  · simp [h1]
  · split_ifs <;> simp [h1]

theorem refill_popSlot (st : Heap) (s : ℕ) : (popSlot st s).refill = st.refill := by
  unfold popSlot; split <;> simp

theorem refill_cacheSpanScan_ne (st : Heap) {m m' : ℕ} (c : ℕ) (sg : UInt32) (h : m' ≠ m) :
    (cacheSpanScan st m c sg).refill m' = st.refill m' := by
  unfold cacheSpanScan; repeat' split
  all_goals simp [Function.update_noteq h]

theorem refill_cacheSpanScan_self (st : Heap) (m c : ℕ) (sg : UInt32) :
    ((cacheSpanScan st m c sg).refill m).cls = c ∧ (cacheSpanScan st m c sg).refill m ≠ .idle := by
  unfold cacheSpanScan; repeat' split
  all_goals simp [Refill.cls]

theorem refill_afterSweep_ne (st : Heap) {m m' : ℕ} (r : Refill) (h : m' ≠ m) :
    (afterSweep st m r).refill m' = st.refill m' := by
  unfold afterSweep; repeat' split
  all_goals simp [Function.update_noteq h]

theorem refill_afterSweep_self (st : Heap) (m : ℕ) (r : Refill) :
    ((afterSweep st m r).refill m).cls = r.cls ∧
      ((afterSweep st m r).refill m = .idle → r = .idle) := by
  unfold afterSweep; repeat' split
  all_goals simp_all [Refill.cls]

theorem refill_haveSpan (st : Heap) (m c s : ℕ) :
    (haveSpan st m c s).refill = st.refill ∨
      (haveSpan st m c s).refill = Function.update st.refill m (.popping c) := by
  unfold haveSpan; repeat' split
  all_goals simp

/-- A refill in progress for class `c` is for a class of the table. -/
theorem RefillOK.cls_of {st : Heap} (h : RefillOK st) {m : ℕ} {r : Refill} (hr : st.refill m = r)
    (hi : r ≠ .idle) : 0 < r.cls ∧ r.cls < numSizeClasses :=
  (hr ▸ h m).resolve_left hi

theorem refillOK_step (sc : SizeClasses) {st st' : Heap} (h : RefillOK st)
    (hs : Step sc st st') : RefillOK st' := by
  cases hs with
  | refill m c hc hc' =>
      exact h.update m (show Refill.ClassOK (.scan c st.sweepgen) from .inr ⟨hc, hc'⟩) rfl
  | scan m c sg hr =>
      refine h.update' m (fun m' hm => refill_cacheSpanScan_ne st c sg hm) (.inr ?_)
      rw [(refill_cacheSpanScan_self st m c sg).1]
      exact h.cls_of hr (by simp)
  | sweep m r c s sg objs hr hcase =>
      refine h.update' m (fun m' hm => ?_) (.inr ?_)
      · rw [refill_afterSweep_ne _ _ hm, refill_sweepPreserve]
      · rw [(refill_afterSweep_self _ m r).1]
        exact h.cls_of hr (by rcases hcase with rfl | rfl <;> simp)
  | grow m c _ i _ _ hr =>
      exact h.setRefill (by simp) m (.inr (by have := h.cls_of hr (by simp); exact this))
  | insert m c s hr =>
      exact h.setRefill rfl m (.inr (by have := h.cls_of hr (by simp); exact this))
  | haveSpan m c s hr =>
      rcases refill_haveSpan st m c s with he | he
      · exact h.of_eq he
      · exact h.update m (.inr (by have := h.cls_of hr (by simp); exact this)) he
  | pop m c s sp => exact h.update m (.inl rfl) (by simp [refill_popSlot])
  | uncache => exact h.of_eq (refill_uncacheSpan _ _ _ _)
  | write => exact h.of_eq rfl
  | bgClaim => exact h.of_eq (by simp)
  | bgNoFree => exact h.of_eq (by simp)
  | bgSplice => exact h.of_eq (by simp [refill_freeSpanSplice])
  | bgLocked => exact h.of_eq (refill_freeSpanLocked _ _ _ _)
  | newGen => exact h.of_eq rfl

/-! ### Every run keeps the partition -/

theorem slotInv_sweepPreserve {st : Heap} (h : SlotInv st) (c s : ℕ) {objs : List ℕ}
    (sg : UInt32) (hobjs : objs = [] ∨ FreeObjs st s objs) :
    SlotInv (sweepPreserve st c s objs sg) := by
  unfold sweepPreserve
  split
  · exact h.of_agree (.stamp _ _ _)
  · rename_i a l
    have hf := slotInv_freeSpanSplice h (hobjs.resolve_left (List.cons_ne_nil a l))
    simp only
    split
    · exact hf
    split
    · exact hf.of_agree (.throw _ _)
    · exact hf.of_agree (.stamp _ _ _)

theorem slotInv_step (sc : SizeClasses) {st st' : Heap} (hr : RefillOK st) (h : SlotInv st)
    (hs : Step sc st st') : SlotInv st' := by
  cases hs with
  | refill => exact h.of_agree (.setRefill _ _ _)
  | scan m c sg => exact h.of_agree (slotsAgree_cacheSpanScan _ _ _ _)
  | sweep m r c s sg objs _ _ hobjs =>
      exact (slotInv_sweepPreserve h c s sg hobjs).of_agree (slotsAgree_afterSweep _ _ _)
  | grow m c start i mem' sp hrm hstart hi hfresh hgrow =>
      have hc := hr.cls_of hrm (by simp)
      exact (slotInv_grow sc h hc.1 hc.2 hstart hi hfresh hgrow).of_agree
        ((SlotsAgree.setOwner _ _ _).trans (.setRefill _ _ _))
  | insert => exact h.of_agree (.of_eq rfl rfl rfl)
  | haveSpan => exact h.of_agree (slotsAgree_haveSpan _ _ _ _)
  | pop m c s sp _ _ hs hne =>
      exact (slotInv_popSlot h hs hne).of_agree (.setRefill _ _ _)
  | uncache => exact h.of_agree (slotsAgree_uncacheSpan _ _ _ _)
  | write s sp o a v hs ho ha => exact slotInv_write h v hs ho ha
  | bgClaim => exact h.of_agree ((SlotsAgree.stamp _ _ _).trans (.setOwner _ _ _))
  | bgNoFree => exact h.of_agree ((SlotsAgree.stamp _ _ _).trans (.setOwner _ _ _))
  | bgSplice s sp objs _ _ hobjs =>
      exact (slotInv_freeSpanSplice h hobjs).of_agree (.setOwner _ _ _)
  | bgLocked s sp w => exact slotInv_freeSpanLocked h _ _ _
  | newGen => exact h.of_agree (.of_eq rfl rfl rfl)

/-- Every reachable heap satisfies the slot invariant. -/
theorem slotInv_reachable (sc : SizeClasses) {st : Heap} (h : Reachable sc st) :
    RefillOK st ∧ SlotInv st := by
  induction h with
  | init mem sg => exact ⟨fun _ => .inl rfl, slotInv_init mem sg⟩
  | step _ hs ih => exact ⟨refillOK_step sc ih.1 hs, slotInv_step sc ih.1 ih.2 hs⟩

/-- The free list of a partitioned span stays inside `[base, s.limit)`. -/
theorem SpanOK.free_mem_limit {mem : ℕ → ℕ} {sp : MSpan} {live fl : List ℕ}
    (h : SpanOK mem sp live) (hp : (fl ++ live).Perm sp.slots) :
    ∀ a ∈ fl, sp.base ≤ a ∧ a < sp.limit := by
  intro a ha
  have has : a ∈ sp.slots := hp.subset (List.mem_append_left _ ha)
  have := lt_of_mem_slotList has
  have := h.elemsize_ge
  refine ⟨le_of_mem_slotList has, ?_⟩
  rw [h.limit_eq, Nat.mul_comm]
  omega

/-- A pop from a partitioned span hands out a slot no span has handed out. -/
theorem SlotInv.pop_fresh {st : Heap} (h : SlotInv st) {s : ℕ} {sp : MSpan}
    (hs : st.spans s = some sp) (hne : sp.freelist ≠ 0) (t : ℕ) : sp.freelist ∉ st.live t := by
  intro ht
  obtain ⟨hmem, hnl, -, -⟩ := (h.span_ok s sp hs).pop hne
  cases htp : st.spans t with
  | none => rw [h.live_none t htp] at ht; simp at ht
  | some tp =>
      have := (h.span_ok t tp htp).elemsize_ge
      exact h.not_free_of_write htp ht ⟨le_rfl, by omega⟩ ⟨s, sp, hs, hmem, hnl⟩

/-- Two different slots, of one span or of two, do not meet. -/
theorem SlotInv.slots_apart {st : Heap} (h : SlotInv st) {s t : ℕ} {sp tp : MSpan} {o o' : ℕ}
    (hs : st.spans s = some sp) (ht : st.spans t = some tp) (ho : o ∈ sp.slots)
    (ho' : o' ∈ tp.slots) (hne : s ≠ t ∨ o ≠ o') :
    o + sp.elemsize ≤ o' ∨ o' + tp.elemsize ≤ o := by
  by_cases hst : s = t
  · subst hst
    obtain rfl : tp = sp := Option.some_injective _ (ht.symm.trans hs)
    exact slotList_disjoint ho ho' (hne.resolve_left (not_not.2 rfl))
  · have h1 := SlotInv.slot_mem_pages ho
    have h2 := SlotInv.slot_mem_pages ho'
    rcases h.disjoint s t sp tp hst hs ht with hd | hd
    · exact .inl (le_trans h1.2 (le_trans (Nat.mul_le_mul_right _ hd) h2.1))
    · exact .inr (le_trans h2.2 (le_trans (Nat.mul_le_mul_right _ hd) h1.1))

/-- Two live objects of a partitioned heap are disjoint. -/
theorem SlotInv.live_disjoint {st : Heap} (h : SlotInv st) {s t : ℕ} {sp tp : MSpan} {o o' : ℕ}
    (hs : st.spans s = some sp) (ht : st.spans t = some tp) (ho : o ∈ st.live s)
    (ho' : o' ∈ st.live t) (hne : s ≠ t ∨ o ≠ o') :
    o + sp.elemsize ≤ o' ∨ o' + tp.elemsize ≤ o :=
  h.slots_apart hs ht ((h.span_ok s sp hs).live_subset o ho)
    ((h.span_ok t tp ht).live_subset o' ho') hne

/-- **Slot partition (no double allocation)** of a heap: every span's slots are split into its
free list (read out of memory, each slot once, ending in nil, inside `[base, s.limit)`) and the
slots handed out, which `s.ref` counts, below `2 ^ 16`; `s.ref++` on a pop and `s.ref -= n` on a
`FreeSpan` do not wrap; a pop hands out a slot that no span has handed out; and no two live
objects overlap. -/
def SlotPartition (st : Heap) : Prop :=
  (∀ s sp, st.spans s = some sp → ∃ fl, Chain st.mem sp.freelist fl ∧
      (fl ++ st.live s).Perm sp.slots ∧ (∀ a ∈ fl, sp.base ≤ a ∧ a < sp.limit) ∧
      sp.ref.toNat = (st.live s).length ∧ (st.live s).length + fl.length = sp.cap ∧
      sp.cap < 2 ^ 16) ∧
  (∀ s sp, st.spans s = some sp → sp.freelist ≠ 0 →
      (sp.ref + 1).toNat = sp.ref.toNat + 1 ∧ ∀ t, sp.freelist ∉ st.live t) ∧
  (∀ s sp objs, st.spans s = some sp → FreeObjs st s objs → objs.length ≤ sp.ref.toNat) ∧
  (∀ s t sp tp o o', st.spans s = some sp → st.spans t = some tp → o ∈ st.live s →
      o' ∈ st.live t → (s ≠ t ∨ o ≠ o') → o + sp.elemsize ≤ o' ∨ o' + tp.elemsize ≤ o)

/-- **Every state the allocator reaches is partitioned.** -/
theorem slot_partition (sc : SizeClasses) {st : Heap} (hr : Reachable sc st) :
    SlotPartition st := by
  have h := (slotInv_reachable sc hr).2
  refine ⟨fun s sp hs => ?_, fun s sp hs hne => ⟨((h.span_ok s sp hs).pop hne).2.2.1,
    h.pop_fresh hs hne⟩, fun s sp objs hs ho => ?_, fun s t sp tp o o' hs ht ho ho' hne =>
    h.live_disjoint hs ht ho ho' hne⟩
  · have hok := h.span_ok s sp hs
    obtain ⟨fl, hc, hp⟩ := hok.free
    have := hok.ref_add_length hc
    exact ⟨fl, hc, hp, hok.free_mem_limit hp, hok.ref_eq, by rw [← hok.ref_eq]; exact this,
      hok.cap_lt⟩
  · exact ((h.span_ok s sp hs).splice objs ho.ne_nil ho.nodup ho.live ho.linked).1

/-- mcache `0` refills class `43` (two 4096-byte slots on one page) from a span that
`mCentral_Grow` carves at page `1`, and `mallocgc` pops one slot: `8192` is handed out and
`12288` is left on the free list. -/
theorem slot_partition_after_pop :
    ∃ st, Reachable goSizeClasses st ∧ st.live 0 = [8192] ∧
      (st.spans 0).map MSpan.freelist = some 12288 ∧ SlotPartition st := by
  have hr := Reachable.step (Reachable.step (Reachable.step (Reachable.step (Reachable.step
    (Reachable.step (@Reachable.init goSizeClasses (fun _ => 0) 2)
      (.refill _ 0 43 (by decide) (by decide) rfl rfl))
      (.scan _ 0 43 2 rfl))
      (.grow _ 0 43 1 0 _ _ rfl (by decide) rfl (fun _ _ h => by cases h) rfl))
      (.insert _ 0 43 0 rfl))
      (.haveSpan _ 0 43 0 rfl))
      (.pop _ 0 43 0 _ (.inr rfl) rfl rfl (by decide))
  exact ⟨_, hr, rfl, rfl, slot_partition _ hr⟩

end GoRuntime
