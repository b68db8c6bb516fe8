/-
**Deferred zeroing.**

The comment at the head of malloc.go states the protocol: "The small objects on the MCache and
MCentral free lists may or may not be zeroed.  They are zeroed if and only if the second word of
the object is zero."  A run fresh from the page heap is zeroed when `mHeap_Alloc` is asked with
`needzero`, as `mCentral_Grow` asks, and the carving then writes only link words.  `mallocgc`
pays for the zeroing on reuse: on the small path without `flagNoZero` it clears the link word,
and clears the whole object when it is bigger than two words and its second word is not zero.

This module adds to the allocator machine of `GoRuntime.Central.Machine` what the protocol
assumes of the code outside the source (`GoRuntime.Assumed`): the run `mHeap_Alloc` hands
`mCentral_Grow` is zero, and every object a sweep splices back is encoded
(`GoRuntime.Encoded`), that is, apart from its link word all zero or marked by a non-zero second
word, the mark only on objects bigger than `2*ptrSize`.  The page heap may zero pages that no span
holds (`GoRuntime.ZReachable.clear`); this is how a run that `mCentral_FreeSpan` gave back can be
handed out again zeroed.

Memory is the model's map from addresses to words: the word written at `a` is the value at `a`,
and the bytes of an object `[o, o + size)` are the addresses in that range.

Main definitions:

* `GoRuntime.Encoded` — the encoding of a free slot;
* `GoRuntime.zeroSmall` — the zeroing on `mallocgc`'s small path;
* `GoRuntime.Assumed`, `GoRuntime.ZReachable` — the runs of the allocator under the assumptions.

Main results:

* `GoRuntime.zeroSmall_eq_zero` — the zeroing clears an encoded slot in all its bytes;
* `GoRuntime.freeEncoded_step`, `GoRuntime.freeEncoded_reachable` — every free slot of every
  span stays encoded, over every run.
-/

import GoRuntime.Arena
import GoRuntime.Central.Slots

set_option autoImplicit false

namespace GoRuntime

/-! ### The encoding and the zeroing of `mallocgc` -/

/-- `memclr(p, n)`: zero the `n` bytes from `p`. -/
def memclr (mem : ℕ → ℕ) (p n : ℕ) : ℕ → ℕ := fun a => if p ≤ a ∧ a < p + n then 0 else mem a

/-- The encoding of a free slot `o` of a span of `size`-byte objects: apart from its link word it
is all zero, or its second word is not zero, the second form only when `size > 2*ptrSize`. -/
def Encoded (mem : ℕ → ℕ) (size o : ℕ) : Prop :=
  (∀ a, o < a → a < o + size → mem a = 0) ∨ (2 * ptrSize < size ∧ mem (o + ptrSize) ≠ 0)

/-- `mallocgc`'s small path after the pop of `v` when `flags&flagNoZero == 0`:
`v.ptr().next = 0`, then `memclr(unsafe.Pointer(v), size)` if
`size > 2*ptrSize && ((*[2]uintptr)(x))[1] != 0`. -/
def zeroSmall (mem : ℕ → ℕ) (v size : ℕ) : ℕ → ℕ :=
  let mem := Function.update mem v 0
  if size > 2 * ptrSize ∧ mem (v + ptrSize) ≠ 0 then memclr mem v size else mem

/-- **The zeroing clears an encoded slot** in all its bytes. -/
theorem zeroSmall_eq_zero {mem : ℕ → ℕ} {v size a : ℕ} (h : Encoded mem size v) (ha : v ≤ a)
    (ha' : a < v + size) : zeroSmall mem v size a = 0 := by
  have h8 : v + ptrSize ≠ v := by unfold ptrSize; omega
  unfold zeroSmall
  split_ifs with hc
  · simp [memclr, ha, ha']
  · rcases eq_or_lt_of_le ha with rfl | hlt
    · exact Function.update_same _ _ _
    rw [Function.update_noteq hlt.ne']
    rcases h with h | ⟨hs, hm⟩
    · exact h a hlt ha'
    · exact absurd ⟨hs, by rwa [Function.update_noteq h8]⟩ hc

/-- The zeroing writes only inside the slot. -/
theorem zeroSmall_of_not_mem {mem : ℕ → ℕ} {v size a : ℕ} (hsize : 0 < size)
    (ha : ¬(v ≤ a ∧ a < v + size)) : zeroSmall mem v size a = mem a := by
  have hav : a ≠ v := fun e => ha ⟨e.ge, by omega⟩
  unfold zeroSmall
  split_ifs <;> simp [memclr, ha, Function.update_noteq hav]

/-- The encoding of a slot reads only the bytes after its link word. -/
theorem Encoded.frame {mem mem' : ℕ → ℕ} {size o : ℕ} (h : Encoded mem size o)
    (heq : ∀ a, o < a → a < o + size → mem' a = mem a) : Encoded mem' size o := by
  rcases h with h | ⟨hs, hm⟩
  · exact .inl fun a h₁ h₂ => (heq a h₁ h₂).trans (h a h₁ h₂)
  · refine .inr ⟨hs, ?_⟩
    rwa [heq _ (by unfold ptrSize; omega) (by unfold ptrSize at *; omega)]

/-- A slot of at most two words is encoded only in the zero form. -/
theorem Encoded.zero_of_le {mem : ℕ → ℕ} {size o : ℕ} (h : Encoded mem size o)
    (hs : size ≤ 2 * ptrSize) : ∀ a, o < a → a < o + size → mem a = 0 :=
  h.resolve_right fun h' => absurd h'.1 (not_lt.2 hs)

/-! ### The invariant -/

/-- **Every free slot is encoded**: every slot of every span that is not handed out. -/
def FreeEncoded (st : Heap) : Prop :=
  ∀ s sp, st.spans s = some sp → ∀ o ∈ sp.slots, o ∉ st.live s → Encoded st.mem sp.elemsize o

/-- A byte of a live object lies in no free slot. -/
theorem SlotInv.not_mem_free {st : Heap} (h : SlotInv st) {s t : ℕ} {sp tp : MSpan} {o o' a : ℕ}
    (hs : st.spans s = some sp) (ho : o ∈ st.live s) (ha : o ≤ a ∧ a < o + sp.elemsize)
    (ht : st.spans t = some tp) (ho' : o' ∈ tp.slots) (hfree : o' ∉ st.live t) :
    ¬(o' ≤ a ∧ a < o' + tp.elemsize) := by
  have hne : s ≠ t ∨ o ≠ o' := by
    by_cases hst : s = t
    · subst hst; exact .inr fun e => hfree (e ▸ ho)
    · exact .inl hst
  have := h.slots_apart hs ht ((h.span_ok s sp hs).live_subset o ho) ho' hne
  omega

/-- Equal slot fields give equal slots and object size. -/
theorem MSpan.slots_of_slotView {sp sp' : MSpan} (hv : sp'.slotView = sp.slotView) :
    sp'.slots = sp.slots ∧ sp'.elemsize = sp.elemsize := by
  simp only [MSpan.slotView, Prod.mk.injEq] at hv
  simp only [MSpan.slots, MSpan.cap, MSpan.base, hv, and_self]

namespace FreeEncoded

variable {st st' : Heap}

/-- A step that keeps memory and the live slots, and leaves every remaining span's slot fields
alone, keeps every free slot encoded. -/
theorem of_view (h : FreeEncoded st) (hmem : st'.mem = st.mem) (hlive : st'.live = st.live)
    (hsp : ∀ s sp', st'.spans s = some sp' → ∃ sp, st.spans s = some sp ∧
      sp'.slotView = sp.slotView) : FreeEncoded st' := by
  intro s sp' hs o ho hfree
  obtain ⟨sp, hs₀, hv⟩ := hsp s sp' hs
  obtain ⟨hslots, hsize⟩ := MSpan.slots_of_slotView hv
  rw [hmem, hsize]
  exact h s sp hs₀ o (hslots ▸ ho) (hlive ▸ hfree)

theorem of_agree (h : FreeEncoded st) (ha : SlotsAgree st st') : FreeEncoded st' :=
  h.of_view ha.mem ha.live ha.spans

/-- The pop only hands a slot out. -/
theorem popSlot (h : FreeEncoded st) (s : ℕ) : FreeEncoded (GoRuntime.popSlot st s) := by
  unfold GoRuntime.popSlot
  split
  · exact h
  rename_i sp hs
  intro t tp ht o ho hfree
  by_cases hts : t = s
  · subst hts
    simp only [Heap.setLive_spans, Heap.setSpan_spans, Function.update_same,
      Option.some.injEq] at ht
    subst ht
    exact h t sp hs o ho fun hl => hfree (by simp [hl])
  · simp only [Heap.setLive_spans, Heap.setSpan_spans, Function.update_noteq hts,
      Heap.setLive_live, Heap.setLive_mem, Heap.setSpan_mem] at ht hfree ⊢
    exact h t tp ht o ho hfree

/-- A write inside a live object misses every free slot. -/
theorem write (h : FreeEncoded st) (hslot : SlotInv st) {s : ℕ} {sp : MSpan} {o a : ℕ} (v : ℕ)
    (hs : st.spans s = some sp) (ho : o ∈ st.live s) (ha : o ≤ a ∧ a < o + sp.elemsize) :
    FreeEncoded { st with mem := Function.update st.mem a v } := by
  intro t tp ht o' ho' hfree
  refine (h t tp ht o' ho' hfree).frame fun b hb hb' => Function.update_noteq ?_ _ _
  rintro rfl
  exact hslot.not_mem_free hs ho ha ht ho' hfree ⟨hb.le, hb'⟩

/-- Zeroing pages that no span holds misses every slot. -/
theorem clear (h : FreeEncoded st) {start npages : ℕ}
    (hfresh : ∀ t tp, st.spans t = some tp → PagesDisjoint start npages tp.start tp.npages) :
    FreeEncoded { st with mem := memclr st.mem (start * pageSize) (npages * pageSize) } := by
  intro t tp ht o ho hfree
  refine (h t tp ht o ho hfree).frame fun b hb hb' => if_neg ?_
  have hpg := SlotInv.slot_mem_pages ho
  rw [add_mul] at hpg
  rcases hfresh t tp ht with hd | hd
  · have := Nat.mul_le_mul_right pageSize hd; rw [add_mul] at this; omega
  · have := Nat.mul_le_mul_right pageSize hd; rw [add_mul] at this; omega

/-- **`mCentral_Grow` on a zeroed run**: every slot of the new span is zero after its link word,
and the carving writes inside the run only. -/
theorem grow (sc : SizeClasses) (h : FreeEncoded st) {c start i : ℕ}
    {mem' : ℕ → ℕ} {sp : MSpan} (hc : 0 < c) (hc' : c < numSizeClasses) (hstart : 0 < start)
    (hi : st.spans i = none)
    (hfresh : ∀ t tp, st.spans t = some tp →
      PagesDisjoint start (sc.classToAllocnpages c) tp.start tp.npages)
    (hgrow : mCentralGrow sc c start st.sweepgen st.mem = .ok (mem', sp))
    (hzero : ∀ a, sp.start * pageSize ≤ a → a < (sp.start + sp.npages) * pageSize →
      st.mem a = 0) :
    FreeEncoded ({ st with mem := mem' }.setSpan i sp) := by
  obtain ⟨mem₁, sp₁, hg, hok, hout, hsp⟩ :=
    spanOK_mCentralGrow sc hc hc' hstart st.sweepgen st.mem
  rw [hg] at hgrow
  obtain ⟨rfl, rfl⟩ := Prod.mk.inj (Except.ok.inj hgrow)
  replace hzero : ∀ a, start * pageSize ≤ a → a < (start + sc.classToAllocnpages c) * pageSize →
      st.mem a = 0 := by
    rw [hsp] at hzero; exact hzero
  have hrun : ∀ o ∈ sp₁.slots, start * pageSize ≤ o ∧
      o + sp₁.elemsize ≤ (start + sc.classToAllocnpages c) * pageSize := by
    intro o ho
    have := SlotInv.slot_mem_pages ho
    rw [hsp] at this ⊢
    exact this
  intro t tp ht o ho hfree
  by_cases hti : t = i
  · subst hti
    simp only [Heap.setSpan_spans, Function.update_same, Option.some.injEq] at ht
    subst ht
    refine .inl fun a h₁ h₂ => ?_
    have hnot : a ∉ sp₁.slots := fun has => by
      rcases slotList_disjoint ho has (by omega) with h' | h' <;> omega
    simp only [Heap.setSpan_mem]
    rw [hout a hnot]
    have := hrun o ho
    exact hzero a (by omega) (by omega)
  · simp only [Heap.setSpan_spans, Function.update_noteq hti] at ht
    simp only [Heap.setSpan_live] at hfree
    refine (h t tp ht o ho hfree).frame fun b hb hb' => hout b fun hbs => ?_
    have h₁ := hrun b hbs
    have h₂ := SlotInv.slot_mem_pages ho
    have := hok.elemsize_ge
    rcases hfresh t tp ht with hd | hd
    · have := Nat.mul_le_mul_right pageSize hd; omega
    · have := Nat.mul_le_mul_right pageSize hd; omega

/-- **The splice of `mCentral_FreeSpan`** writes only the link word of the last object, which is
in no other slot; the objects it frees are encoded when the sweep hands them back. -/
theorem splice (h : FreeEncoded st) (hslot : SlotInv st) {s : ℕ} {objs : List ℕ}
    (ho : FreeObjs st s objs)
    (henc : ∀ sp, st.spans s = some sp → sp.incache = false → ∀ o ∈ objs,
      Encoded st.mem sp.elemsize o) :
    FreeEncoded (st.freeSpanSplice s objs ho.ne_nil) := by
  unfold Heap.freeSpanSplice
  split
  · exact h
  rename_i sp hs
  split
  · exact h.of_agree (.throw _ _)
  rename_i hic
  have hobj := henc sp hs (by simpa using hic)
  set e := objs.getLast ho.ne_nil
  have he : e ∈ sp.slots :=
    (hslot.span_ok s sp hs).live_subset e (ho.live e (List.getLast_mem _))
  -- the one write, the link word of `e`, is in no slot's bytes after its link word
  have hframe : ∀ t tp, st.spans t = some tp → ∀ o ∈ tp.slots, ∀ b, o < b →
      b < o + tp.elemsize → b ≠ e := by
    rintro t tp ht o ho' b hb hb' rfl
    by_cases hst : s = t ∧ objs.getLast ho.ne_nil = o
    · obtain ⟨-, he'⟩ := hst; omega
    · have := hslot.slots_apart hs ht he ho' (by tauto)
      have := (hslot.span_ok s sp hs).elemsize_ge
      omega
  intro t tp ht o ho' hfree
  simp only [Heap.setLive_mem, Heap.setSpan_mem, MSpan.splice]
  by_cases hts : t = s
  · subst hts
    simp only [Heap.setLive_spans, Heap.setSpan_spans, Function.update_same,
      Option.some.injEq] at ht
    subst ht
    simp only [Heap.setLive_live, Function.update_same, List.mem_filter, not_and,
      decide_eq_true_eq, not_not] at hfree
    by_cases hl : o ∈ st.live t
    · exact (hobj o (hfree hl)).frame fun b hb hb' =>
        Function.update_noteq (hframe t sp hs o ho' b hb hb') _ _
    · exact (h t sp hs o ho' hl).frame fun b hb hb' =>
        Function.update_noteq (hframe t sp hs o ho' b hb hb') _ _
  · simp only [Heap.setLive_spans, Heap.setSpan_spans, Function.update_noteq hts,
      Heap.setLive_live] at ht hfree
    exact (h t tp ht o ho' hfree).frame fun b hb hb' =>
      Function.update_noteq (hframe t tp ht o ho' b hb hb') _ _

/-- The locked half of `mCentral_FreeSpan` relinks and stamps the span, or drops it. -/
theorem freeSpanLocked (h : FreeEncoded st) (c s : ℕ) (w : Bool) :
    FreeEncoded (GoRuntime.freeSpanLocked st c s w) := by
  have h1 : SlotsAgree st (if w then st.moveToNonempty c s else st) := by
    split
    · exact .moveToNonempty _ _ _
    · exact .refl _
  set st₁ := if w then st.moveToNonempty c s else st
  have h2 := h.of_agree (h1.trans ((SlotsAgree.stamp st₁ s st₁.sweepgen).trans
    (.setOwner _ s .central)))
  unfold GoRuntime.freeSpanLocked
  simp only
  split
  · exact h2
  split
  · exact h2
  refine h2.of_view rfl rfl fun t tp ht => ?_
  by_cases hts : t = s
  · subst hts; simp at ht
  · exact ⟨tp, by simpa [Function.update_noteq hts] using ht, rfl⟩

theorem sweepPreserve (h : FreeEncoded st) (hslot : SlotInv st) (c s : ℕ) {objs : List ℕ}
    (sg : UInt32) (hobjs : objs = [] ∨ FreeObjs st s objs)
    (henc : ∀ sp, st.spans s = some sp → sp.incache = false → ∀ o ∈ objs,
      Encoded st.mem sp.elemsize o) :
    FreeEncoded (GoRuntime.sweepPreserve st c s objs sg) := by
  unfold GoRuntime.sweepPreserve
  split
  · exact h.of_agree (.stamp _ _ _)
  · rename_i a l
    have hf := h.splice hslot (hobjs.resolve_left (List.cons_ne_nil a l)) henc
    simp only
    split
    · exact hf
    split
    · exact hf.of_agree (.throw _ _)
    · exact hf.of_agree (.stamp _ _ _)

end FreeEncoded

end GoRuntime
