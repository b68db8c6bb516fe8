/-
**`mCentral_CacheSpan` retries a bounded number of times.**

`CacheSpan` jumps back to `retry:` only after it has claimed a span of `c.empty` with
`cas(&s.sweepgen, sg-2, sg-1)`, swept it, and found it still full.  The claim takes that span
out of the spans of class `c` stamped `sg-2` (`GoRuntime.Heap.unswept`).  No step of any thread
puts a span back into that set while the call runs: a claim stamps `sg-1`, a sweep (the
`preserve` branch of `mCentral_FreeSpan`, the background sweeper, and its locked half) stamps the
current generation, `mCentral_Grow` stamps its new span with it, every other step keeps each
span's class and stamp (`GoRuntime.stampsForward_step`), and `mheap_.sweepgen` does not move
while a refill is in progress.  So a call retries at most as often as the set had members when
it started, and scans its lists at most once more than it retries.

The call also returns.  Its own step is always enabled, `mCentral_Grow` included: a reachable
heap has finitely many spans (`GoRuntime.Heap.SpansBelow`), so `mHeap_Alloc` always has a free
run to hand out.  Each own step lowers the call's phase, or retries, which the claim before it
paid for; so from wherever a run has got to, the call's own steps reach `return`.

Main definitions:

* `GoRuntime.Heap.unswept` — the spans of a class that a call can still claim;
* `GoRuntime.CallRun` — the runs of the allocator during one call of `CacheSpan`, counting the
  call's retries and its scans.

Main results:

* `GoRuntime.unswept_step` — no step adds to the set;
* `GoRuntime.grow_step`, `GoRuntime.own_step` — the call always has a step of its own;
* `GoRuntime.callRun_returns` — its own steps take it to `return`;
* `GoRuntime.cacheSpan_retries` — the bound and the return, over every interleaving.
-/

import GoRuntime.Central.Lists

set_option autoImplicit false

namespace GoRuntime

/-! ### The spans a call can still claim -/

/-- The spans on the lists of class `c` stamped `g - 2`: those a call of `CacheSpan` in
generation `g` can claim and sweep. -/
def Heap.unswept (st : Heap) (c : ℕ) (g : UInt32) : Finset ℕ :=
  ((st.nonempty c ++ st.empty c).filter (needsSweep st.spans g)).toFinset

theorem needsSweep_iff {spans : ℕ → Option MSpan} {g : UInt32} {t : ℕ} :
    needsSweep spans g t ↔ ∃ sp, spans t = some sp ∧ sp.sweepgen = g - 2 := by
  simp [needsSweep]

theorem Heap.mem_unswept {st : Heap} {c t : ℕ} {g : UInt32} :
    t ∈ st.unswept c g ↔ (t ∈ st.nonempty c ∨ t ∈ st.empty c) ∧ needsSweep st.spans g t := by
  simp [Heap.unswept, or_and_right]

/-- Under the list invariant the unswept set of the current generation holds every span of
class `c` stamped `sg-2`: only the central lists hold such a span, and they list it. -/
theorem ListInv.mem_unswept {st : Heap} (h : ListInv st) {c t : ℕ} :
    t ∈ st.unswept c st.sweepgen ↔
      ∃ sp, st.spans t = some sp ∧ sp.sizeclass = c ∧ sp.sweepgen = st.sweepgen - 2 := by
  rw [Heap.mem_unswept, needsSweep_iff]
  constructor
  · rintro ⟨hl, sp, hs, hg⟩
    obtain ⟨sp', hs', hc⟩ := h.listed hl
    rw [hs] at hs'; cases hs'
    exact ⟨sp, hs, hc, hg⟩
  · rintro ⟨sp, hs, rfl, hg⟩
    have hp := h.placed hs
    simp only [PlacedAt, hp.owner_of_sub_two hg] at hp
    refine ⟨?_, sp, hs, hg⟩
    rcases hp.1 with ⟨hpl, -⟩ | hpl <;> simp only [Heap.places, Prod.mk.injEq] at hpl
    · exact .inl (List.count_pos_iff.mp (by omega))
    · exact .inr (List.count_pos_iff.mp (by omega))

/-! ### Stamps move forward -/

/-- Within generation `g`, the table `spans'` stamps a span `g - 2` only if `spans` already did,
with the same class. -/
def StampsForward (g : UInt32) (spans spans' : ℕ → Option MSpan) : Prop :=
  ∀ t sp', spans' t = some sp' → sp'.sweepgen = g - 2 →
    ∃ sp, spans t = some sp ∧ sp.sizeclass = sp'.sizeclass ∧ sp.sweepgen = g - 2

namespace StampsForward

variable {g : UInt32} {spans spans₁ spans₂ : ℕ → Option MSpan}

theorem refl (g : UInt32) (spans : ℕ → Option MSpan) : StampsForward g spans spans :=
  fun _ sp' hs hg => ⟨sp', hs, rfl, hg⟩

theorem trans (h₁ : StampsForward g spans spans₁) (h₂ : StampsForward g spans₁ spans₂) :
    StampsForward g spans spans₂ := fun t sp₂ hs hg =>
  let ⟨sp₁, hs₁, hc₁, hg₁⟩ := h₂ t sp₂ hs hg
  let ⟨sp, hs, hc, hg⟩ := h₁ t sp₁ hs₁ hg₁
  ⟨sp, hs, hc.trans hc₁, hg⟩

theorem update {s : ℕ} {sp' : MSpan}
    (h : sp'.sweepgen = g - 2 →
      ∃ sp, spans s = some sp ∧ sp.sizeclass = sp'.sizeclass ∧ sp.sweepgen = g - 2) :
    StampsForward g spans (Function.update spans s (some sp')) := by
  intro t tp ht hg
  by_cases hts : t = s
  · subst hts
    rw [Function.update_same, Option.some.injEq] at ht
    exact ht ▸ h (ht ▸ hg)
  · rw [Function.update_noteq hts] at ht
    exact ⟨tp, ht, rfl, hg⟩

theorem erase (s : ℕ) : StampsForward g spans (Function.update spans s none) := by
  intro t tp ht hg
  by_cases hts : t = s
  · subst hts; simp at ht
  · rw [Function.update_noteq hts] at ht
    exact ⟨tp, ht, rfl, hg⟩

/-- A record rewritten with its class and stamp kept. -/
theorem keep {s : ℕ} {sp sp' : MSpan} (hs : spans s = some sp)
    (hc : sp'.sizeclass = sp.sizeclass) (hg : sp'.sweepgen = sp.sweepgen) :
    StampsForward g spans (Function.update spans s (some sp')) :=
  update fun h => ⟨sp, hs, hc.symm, hg ▸ h⟩

/-- A stamp other than `g - 2`. -/
theorem stamp (st : Heap) (s : ℕ) {g' : UInt32} (h : g' ≠ g - 2) :
    StampsForward g st.spans (st.stamp s g').spans := by
  rw [Heap.stamp_spans]
  cases st.spans s with
  | none => exact erase s
  | some sp => exact update fun h' => absurd h' h

end StampsForward

/-! ### What each operation does to stamps and to the generation -/

@[simp] theorem spans_afterSweep (st : Heap) (m : ℕ) (r : Refill) :
    (afterSweep st m r).spans = st.spans := by
  unfold afterSweep; repeat' split
  all_goals rfl

@[simp] theorem sweepgen_afterSweep (st : Heap) (m : ℕ) (r : Refill) :
    (afterSweep st m r).sweepgen = st.sweepgen := by
  unfold afterSweep; repeat' split
  all_goals rfl

@[simp] theorem sweepgen_cacheSpanScan (st : Heap) (m c : ℕ) (sg : UInt32) :
    (cacheSpanScan st m c sg).sweepgen = st.sweepgen := by
  unfold cacheSpanScan; repeat' split
  all_goals simp

@[simp] theorem sweepgen_freeSpanSplice (st : Heap) (s : ℕ) (objs : List ℕ) (hne : objs ≠ []) :
    (st.freeSpanSplice s objs hne).sweepgen = st.sweepgen := by
  unfold Heap.freeSpanSplice; repeat' split
  all_goals simp

@[simp] theorem sweepgen_sweepPreserve (st : Heap) (c s : ℕ) (objs : List ℕ) (sg : UInt32) :
    (sweepPreserve st c s objs sg).sweepgen = st.sweepgen := by
  cases objs <;> simp only [sweepPreserve] <;> (try split_ifs) <;> simp

@[simp] theorem sweepgen_haveSpan (st : Heap) (m c s : ℕ) :
    (haveSpan st m c s).sweepgen = st.sweepgen := by
  unfold haveSpan; repeat' split
  all_goals simp

@[simp] theorem sweepgen_popSlot (st : Heap) (s : ℕ) : (popSlot st s).sweepgen = st.sweepgen := by
  unfold popSlot; split <;> simp

@[simp] theorem sweepgen_uncacheSpan (st : Heap) (m c s : ℕ) :
    (uncacheSpan st m c s).sweepgen = st.sweepgen := by
  unfold uncacheSpan; repeat' split
  all_goals simp

@[simp] theorem sweepgen_freeSpanLocked (st : Heap) (c s : ℕ) (w : Bool) :
    (freeSpanLocked st c s w).sweepgen = st.sweepgen := by
  have h1 : (if w then st.moveToNonempty c s else st).sweepgen = st.sweepgen := by
    split_ifs <;> rfl
  unfold freeSpanLocked
  simp only
  split
  · simp [h1]
  · split_ifs <;> simp [h1]

theorem sweepgen_of_mCentralGrow {sc : SizeClasses} {c start : ℕ} {sg : UInt32}
    {mem mem' : ℕ → ℕ} {sp : MSpan} (h : mCentralGrow sc c start sg mem = .ok (mem', sp)) :
    sp.sweepgen = sg := by
  simp only [mCentralGrow] at h
  split_ifs at h
  cases h; rfl

/-- `mheap_.sweepgen` moves only when every refill is idle. -/
theorem sweepgen_step {sc : SizeClasses} {st st' : Heap} (hs : Step sc st st') {m : ℕ}
    (hm : st.refill m ≠ .idle) : st'.sweepgen = st.sweepgen := by
  cases hs with
  | newGen hidle => exact absurd (hidle m) hm
  | _ => simp

theorem stampsForward_cacheSpanScan (st : Heap) (m c : ℕ) (sg : UInt32) :
    StampsForward sg st.spans (cacheSpanScan st m c sg).spans := by
  unfold cacheSpanScan; repeat' split
  all_goals simp only [Heap.setRefill_spans, Heap.setOwner_spans, Heap.moveToEmpty_spans]
  all_goals first
    | exact .refl _ _
    | exact .stamp st _ (gen_ne sg).2.1.symm

theorem stampsForward_freeSpanSplice (g : UInt32) (st : Heap) (s : ℕ) (objs : List ℕ)
    (hne : objs ≠ []) : StampsForward g st.spans (st.freeSpanSplice s objs hne).spans := by
  unfold Heap.freeSpanSplice
  split
  · exact .refl _ _
  · rename_i sp hs
    split
    · exact .refl _ _
    · exact .keep hs rfl rfl

theorem stampsForward_sweepPreserve (st : Heap) (c s : ℕ) (objs : List ℕ) (sg : UInt32) :
    StampsForward sg st.spans (sweepPreserve st c s objs sg).spans := by
  cases objs with
  | nil => exact .stamp st s (gen_ne sg).1.symm
  | cons a l =>
    have hf := stampsForward_freeSpanSplice sg st s (a :: l) (List.cons_ne_nil a l)
    simp only [sweepPreserve]
    split_ifs
    all_goals first
      | exact hf
      | exact hf.trans (.stamp _ s (gen_ne sg).1.symm)

theorem stampsForward_haveSpan (g : UInt32) (st : Heap) (m c s : ℕ) :
    StampsForward g st.spans (haveSpan st m c s).spans := by
  unfold haveSpan
  split
  · exact .refl _ _
  · rename_i sp hs
    split_ifs
    · exact .refl _ _
    · exact .refl _ _
    · exact .keep hs rfl rfl

theorem stampsForward_popSlot (g : UInt32) (st : Heap) (s : ℕ) :
    StampsForward g st.spans (popSlot st s).spans := by
  unfold popSlot
  split
  · exact .refl _ _
  · rename_i sp hs
    exact .keep hs rfl rfl

theorem stampsForward_uncacheSpan (g : UInt32) (st : Heap) (m c s : ℕ) :
    StampsForward g st.spans (uncacheSpan st m c s).spans := by
  unfold uncacheSpan
  split
  · exact .refl _ _
  · rename_i sp hs
    simp only
    split_ifs
    · exact .keep hs rfl rfl
    · exact .keep hs rfl rfl
    · exact .keep hs rfl rfl

theorem stampsForward_freeSpanLocked (st : Heap) (c s : ℕ) (w : Bool) :
    StampsForward st.sweepgen st.spans (freeSpanLocked st c s w).spans := by
  have h₁ : (if w then st.moveToNonempty c s else st).spans = st.spans := by split_ifs <;> rfl
  have h₂ : (if w then st.moveToNonempty c s else st).sweepgen = st.sweepgen := by
    split_ifs <;> rfl
  unfold freeSpanLocked
  generalize (if w then st.moveToNonempty c s else st) = st₁ at h₁ h₂ ⊢
  have hst : StampsForward st.sweepgen st.spans (st₁.stamp s st₁.sweepgen).spans := by
    have := @StampsForward.stamp st.sweepgen st₁ s st₁.sweepgen
      (by rw [h₂]; exact (gen_ne _).1.symm)
    rwa [h₁] at this
  simp only
  split
  · exact hst
  · split_ifs
    · exact hst
    · exact hst.trans (.erase s)

/-- **Every step moves stamps forward** in the current generation: no span becomes stamped
`sg-2`. -/
theorem stampsForward_step {sc : SizeClasses} {st st' : Heap} (h : ListInv st)
    (hs : Step sc st st') : StampsForward st.sweepgen st.spans st'.spans := by
  cases hs with
  | scan m c sg hr =>
    obtain rfl : sg = st.sweepgen := (h.mcache m).gen sg (by simp [hr, Refill.gen])
    exact stampsForward_cacheSpanScan st m c _
  | sweep m r c s sg objs hr hcase =>
    obtain rfl : sg = st.sweepgen :=
      (h.mcache m).gen sg (by rcases hcase with rfl | rfl <;> simp [hr, Refill.gen])
    rw [spans_afterSweep]
    exact stampsForward_sweepPreserve st c s objs _
  | grow m c start i mem' sp hr hstart hi hfresh hgrow =>
    exact .update fun hg => absurd (hg.symm.trans (sweepgen_of_mCentralGrow hgrow))
      (gen_ne _).1
  | haveSpan m c s => exact stampsForward_haveSpan _ st m c s
  | pop m c s => exact stampsForward_popSlot _ st s
  | uncache m c s => exact stampsForward_uncacheSpan _ st m c s
  | bgClaim s => exact .stamp st s (gen_ne _).2.1.symm
  | bgNoFree s => exact .stamp st s (gen_ne _).1.symm
  | bgSplice s sp objs _ _ hobjs => exact stampsForward_freeSpanSplice _ st s objs _
  | bgLocked s sp w => exact stampsForward_freeSpanLocked st _ s w
  | _ => exact .refl _ _

/-- **No step adds to the unswept set** of a class while the generation stays. -/
theorem unswept_step {sc : SizeClasses} {st st' : Heap} (hslot : SlotInv st) (h : ListInv st)
    (hs : Step sc st st') (hg : st'.sweepgen = st.sweepgen) (c : ℕ) :
    st'.unswept c st.sweepgen ⊆ st.unswept c st.sweepgen := by
  intro t ht
  rw [← hg, (listInv_step sc hslot h hs).mem_unswept, hg] at ht
  obtain ⟨sp', hs', rfl, hsg⟩ := ht
  obtain ⟨sp, hsp, hc, hsg'⟩ := stampsForward_step h hs t sp' hs' hsg
  exact h.mem_unswept.2 ⟨sp, hsp, hc, hsg'⟩

/-! ### Where a call of `CacheSpan` can go -/

/-- At `retry:`, about to scan the lists. -/
def Refill.isScan : Refill → Bool
  | .scan .. => true
  | _ => false

/-- Sweeping a span claimed from `c.empty`, after which the call may retry. -/
def Refill.isSweepEmpty : Refill → Bool
  | .sweepEmpty .. => true
  | _ => false

/-- The move from `r` to `r'` is a `goto retry`. -/
def Refill.retried (r r' : Refill) : Bool := r.isSweepEmpty && r'.isScan

/-- The move from `r` to `r'` is a locked scan of the lists. -/
def Refill.scanned (r r' : Refill) : Bool := r.isScan && !r'.isScan

theorem Refill.isSweepEmpty_and_isScan (r : Refill) : (r.isSweepEmpty && r.isScan) = false := by
  cases r <;> rfl

theorem Refill.ne_idle_of_busy {r : Refill} {c : ℕ} (hb : r.busy = some c) : r ≠ .idle := by
  rintro rfl; cases hb

/-- A scan that goes on to sweep a span of `c.empty` claimed it: the span was unswept, and the
claim's stamp `sg-1` takes it out of the set. -/
theorem cacheSpanScan_claim (st : Heap) (m c : ℕ) (sg : UInt32)
    (h : ((cacheSpanScan st m c sg).refill m).isSweepEmpty) :
    ∃ s ∈ st.unswept c sg, s ∉ (cacheSpanScan st m c sg).unswept c sg := by
  cases h₁ : firstUnclaimed st.spans sg (st.nonempty c) with
  | some s =>
    simp only [cacheSpanScan, h₁] at h
    split_ifs at h <;> simp [Refill.isSweepEmpty] at h
  | none =>
    cases h₂ : firstUnclaimed st.spans sg (st.empty c) with
    | none => simp [cacheSpanScan, h₁, h₂, Refill.isSweepEmpty] at h
    | some s =>
      by_cases hsw : needsSweep st.spans sg s
      · refine ⟨s, Heap.mem_unswept.2 ⟨.inr (firstUnclaimed_spec h₂).1, hsw⟩, ?_⟩
        simp only [cacheSpanScan, h₁, h₂, hsw, if_true, Heap.mem_unswept, needsSweep_iff,
          not_and, not_exists]
        intro _ sp hsp hg
        simp only [Heap.setRefill_spans, Heap.setOwner_spans, Heap.moveToEmpty_spans,
          Heap.stamp_spans, Function.update_same, Option.map_eq_some'] at hsp
        obtain ⟨_, -, rfl⟩ := hsp
        exact (gen_ne sg).2.1 hg.symm
      · simp [cacheSpanScan, h₁, h₂, hsw, Refill.isSweepEmpty] at h

theorem cacheSpanScan_not_scan (st : Heap) (m c : ℕ) (sg : UInt32) :
    ((cacheSpanScan st m c sg).refill m).isScan = false := by
  unfold cacheSpanScan; repeat' split
  all_goals simp [Refill.isScan]

/-- **How a step moves mcache `m`'s refill** while its call for class `c` is in progress: not
at all; or a scan, into `retry:` never, and into the sweep of a span of `c.empty` only by a
claim that takes the span out of the unswept set; or a retry from that sweep; or a move
between the other phases. -/
theorem refill_step_cases {sc : SizeClasses} {st st' : Heap} (h : ListInv st)
    (hs : Step sc st st') {m c : ℕ} (hb : (st.refill m).busy = some c) :
    st'.refill m = st.refill m ∨
    (∃ sg, st.refill m = .scan c sg ∧ (st'.refill m).isScan = false ∧
      ((st'.refill m).isSweepEmpty →
        ∃ s ∈ st.unswept c st.sweepgen, s ∉ st'.unswept c st.sweepgen)) ∨
    (∃ s sg, st.refill m = .sweepEmpty c s sg ∧ (st'.refill m).isScan) ∨
    ((st.refill m).isScan = false ∧ (st'.refill m).isScan = false ∧
      (st'.refill m).isSweepEmpty = false) := by
  cases hs with
  | refill m' c' _ _ hidle =>
    by_cases hm : m' = m
    · subst hm; simp [hidle, Refill.busy] at hb
    · exact .inl (by simp [Function.update_noteq (Ne.symm hm)])
  | scan m' c' sg hr =>
    by_cases hm : m' = m
    · subst hm
      obtain rfl : c' = c := by simpa [hr, Refill.busy] using hb
      obtain rfl : sg = st.sweepgen := (h.mcache m').gen sg (by simp [hr, Refill.gen])
      exact .inr (.inl ⟨_, hr, cacheSpanScan_not_scan st m' c' _,
        cacheSpanScan_claim st m' c' _⟩)
    · exact .inl (refill_cacheSpanScan_ne st c' sg (Ne.symm hm))
  | sweep m' r c' s sg objs hr hcase =>
    by_cases hm : m' = m
    · subst hm
      rcases hcase with rfl | rfl
      · exact .inr (.inr (.inr ⟨by simp [hr, Refill.isScan],
          by simp [afterSweep, Refill.isScan], by simp [afterSweep, Refill.isSweepEmpty]⟩))
      · obtain rfl : c' = c := by simpa [hr, Refill.busy] using hb
        simp only [afterSweep]
        split_ifs
        · exact .inr (.inr (.inr ⟨by simp [hr, Refill.isScan], by simp [Refill.isScan],
            by simp [Refill.isSweepEmpty]⟩))
        · exact .inr (.inr (.inl ⟨s, sg, hr, by simp [Refill.isScan]⟩))
    · exact .inl (by rw [refill_afterSweep_ne _ _ (Ne.symm hm), refill_sweepPreserve])
  | grow m' c' _ _ _ _ hr =>
    by_cases hm : m' = m
    · subst hm
      exact .inr (.inr (.inr ⟨by simp [hr, Refill.isScan], by simp [Refill.isScan],
        by simp [Refill.isSweepEmpty]⟩))
    · exact .inl (by simp [Function.update_noteq (Ne.symm hm)])
  | insert m' c' s hr =>
    by_cases hm : m' = m
    · subst hm
      exact .inr (.inr (.inr ⟨by simp [hr, Refill.isScan], by simp [Refill.isScan],
        by simp [Refill.isSweepEmpty]⟩))
    · exact .inl (by simp [Function.update_noteq (Ne.symm hm)])
  | haveSpan m' c' s hr =>
    rcases refill_haveSpan st m' c' s with heq | heq
    · exact .inl (by rw [heq])
    · by_cases hm : m' = m
      · subst hm
        exact .inr (.inr (.inr ⟨by simp [hr, Refill.isScan], by simp [heq, Refill.isScan],
          by simp [heq, Refill.isSweepEmpty]⟩))
      · exact .inl (by simp [heq, Function.update_noteq (Ne.symm hm)])
  | pop m' c' s sp hr =>
    by_cases hm : m' = m
    · subst hm
      refine .inr (.inr (.inr ⟨?_, by simp [Refill.isScan], by simp [Refill.isSweepEmpty]⟩))
      rcases hr with hr | hr <;> simp [hr, Refill.isScan]
    · exact .inl (by simp [refill_popSlot, Function.update_noteq (Ne.symm hm)])
  | uncache m' c' s => exact .inl (by rw [refill_uncacheSpan])
  | bgSplice s sp objs => exact .inl (by simp [refill_freeSpanSplice])
  | bgLocked s sp w => exact .inl (by rw [refill_freeSpanLocked])
  | _ => exact .inl (by simp)

/-- **One step of the accounting**: a retry is paid for by the claim before it, and the call
scans once at entry and once after each retry. -/
theorem retry_count_step {sc : SizeClasses} {st st' : Heap} (hslot : SlotInv st) (h : ListInv st)
    (hs : Step sc st st') {m c : ℕ} (hb : (st.refill m).busy = some c) :
    ((st.refill m).retried (st'.refill m)).toNat + (st'.unswept c st.sweepgen).card +
        (st'.refill m).isSweepEmpty.toNat ≤
      (st.unswept c st.sweepgen).card + (st.refill m).isSweepEmpty.toNat ∧
    ((st.refill m).scanned (st'.refill m)).toNat + (st'.refill m).isScan.toNat =
      ((st.refill m).retried (st'.refill m)).toNat + (st.refill m).isScan.toNat := by
  have hsub := unswept_step hslot h hs (sweepgen_step hs (Refill.ne_idle_of_busy hb)) c
  have hle := Finset.card_le_card hsub
  simp only [Refill.retried, Refill.scanned]
  rcases refill_step_cases h hs hb with heq | ⟨sg, hr, hsc, hcl⟩ | ⟨s, sg, hr, hsc⟩ |
      ⟨h₁, h₂, h₃⟩
  · rw [heq, Refill.isSweepEmpty_and_isScan]
    cases (st.refill m).isScan <;> simp <;> omega
  · rw [hr, hsc]
    cases he : (st'.refill m).isSweepEmpty
    · simp [Refill.isScan, Refill.isSweepEmpty]; omega
    · obtain ⟨t, ht, ht'⟩ := hcl he
      have := Finset.card_lt_card ((Finset.ssubset_iff_of_subset hsub).2 ⟨t, ht, ht'⟩)
      simp [Refill.isScan, Refill.isSweepEmpty]; omega
  · have he : (st'.refill m).isSweepEmpty = false := by
      simpa [hsc] using Refill.isSweepEmpty_and_isScan (st'.refill m)
    rw [hr, hsc, he]
    simp [Refill.isScan, Refill.isSweepEmpty]; omega
  · rw [h₁, h₂, h₃]
    simp; omega

/-! ### `mCentral_Grow` always finds a run -/

/-- Every span of `st` has an index below `n` and a page run that ends at or below page `n`. -/
def Heap.SpansBelow (st : Heap) (n : ℕ) : Prop :=
  ∀ t tp, st.spans t = some tp → t < n ∧ tp.start + tp.npages ≤ n

section SpansBelow

variable {st st' : Heap} {n : ℕ}

/-- A table whose spans all come from `st`, on the same pages. -/
theorem Heap.SpansBelow.of_spans (h : st.SpansBelow n) (hsp : ∀ t tp', st'.spans t = some tp' →
    ∃ tp, st.spans t = some tp ∧ tp'.start = tp.start ∧ tp'.npages = tp.npages) :
    st'.SpansBelow n := fun t tp' ht => by
  obtain ⟨tp, htp, hs, hn⟩ := hsp t tp' ht
  rw [hs, hn]
  exact h t tp htp

theorem Heap.SpansBelow.of_agree (h : st.SpansBelow n) (ha : SlotsAgree st st') :
    st'.SpansBelow n :=
  h.of_spans fun t tp' ht => by
    obtain ⟨tp, htp, hv⟩ := ha.spans t tp' ht
    simp only [MSpan.slotView, Prod.mk.injEq] at hv
    exact ⟨tp, htp, hv.1, hv.2.1⟩

/-- One span's record replaced by one on the same pages. -/
theorem Heap.SpansBelow.setSpan (h : st.SpansBelow n) {s : ℕ} {sp sp' : MSpan}
    (hs : st.spans s = some sp) (hp : sp'.start = sp.start ∧ sp'.npages = sp.npages) :
    (st.setSpan s sp').SpansBelow n :=
  h.of_spans fun t tp' ht => by
    by_cases hts : t = s
    · subst hts
      simp only [Heap.setSpan_spans, Function.update_same, Option.some.injEq] at ht
      subst ht
      exact ⟨sp, hs, hp⟩
    · rw [Heap.setSpan_spans, Function.update_noteq hts] at ht
      exact ⟨tp', ht, rfl, rfl⟩

theorem spansBelow_popSlot (h : st.SpansBelow n) (s : ℕ) : (popSlot st s).SpansBelow n := by
  unfold popSlot
  split
  · exact h
  · rename_i sp hs
    exact h.setSpan hs ⟨rfl, rfl⟩

theorem spansBelow_freeSpanSplice (h : st.SpansBelow n) (s : ℕ) (objs : List ℕ)
    (hne : objs ≠ []) : (st.freeSpanSplice s objs hne).SpansBelow n := by
  unfold Heap.freeSpanSplice
  split
  · exact h
  · rename_i sp hs
    split
    · exact h
    · exact @Heap.SpansBelow.setSpan { st with mem := _ } n h s sp _ hs ⟨rfl, rfl⟩

theorem spansBelow_sweepPreserve (h : st.SpansBelow n) (c s : ℕ) (objs : List ℕ)
    (sg : UInt32) : (sweepPreserve st c s objs sg).SpansBelow n := by
  cases objs with
  | nil => exact h.of_agree (.stamp _ _ _)
  | cons a l =>
    have hf := spansBelow_freeSpanSplice h s (a :: l) (List.cons_ne_nil a l)
    simp only [sweepPreserve]
    split_ifs <;> first | exact hf | exact hf.of_agree (.stamp _ _ _)

theorem spansBelow_freeSpanLocked (h : st.SpansBelow n) (c s : ℕ) (w : Bool) :
    (freeSpanLocked st c s w).SpansBelow n := by
  have h₁ : (if w then st.moveToNonempty c s else st).SpansBelow n := by split_ifs <;> exact h
  unfold freeSpanLocked
  generalize (if w then st.moveToNonempty c s else st) = st₁ at h₁ ⊢
  have h₂ := h₁.of_agree ((SlotsAgree.stamp st₁ s st₁.sweepgen).trans (.setOwner _ s .central))
  simp only
  split
  · exact h₂
  · split_ifs
    · exact h₂
    · refine h₂.of_spans fun t tp' ht => ?_
      by_cases hts : t = s
      · subst hts; simp at ht
      · exact ⟨tp', by simpa [Function.update_noteq hts] using ht, rfl, rfl⟩

end SpansBelow

/-- **The spans stay finitely many**: a step keeps each span on its pages or drops it, except
`mCentral_Grow`, which adds one. -/
theorem spansBelow_step {sc : SizeClasses} {st st' : Heap} {n : ℕ} (h : st.SpansBelow n)
    (hs : Step sc st st') : ∃ n', st'.SpansBelow n' := by
  cases hs with
  | scan => exact ⟨n, h.of_agree (slotsAgree_cacheSpanScan _ _ _ _)⟩
  | sweep m r c s sg objs =>
    exact ⟨n, (spansBelow_sweepPreserve h c s objs sg).of_agree (slotsAgree_afterSweep _ _ _)⟩
  | grow m c start i mem' sp =>
    refine ⟨max n (max (i + 1) (sp.start + sp.npages)), fun t tp ht => ?_⟩
    by_cases hti : t = i
    · subst hti
      simp only [Heap.setRefill_spans, Heap.setOwner_spans, Heap.setSpan_spans,
        Function.update_same, Option.some.injEq] at ht
      subst ht
      omega
    · simp only [Heap.setRefill_spans, Heap.setOwner_spans, Heap.setSpan_spans,
        Function.update_noteq hti] at ht
      have := h t tp ht
      omega
  | haveSpan => exact ⟨n, h.of_agree (slotsAgree_haveSpan _ _ _ _)⟩
  | pop m c s => exact ⟨n, spansBelow_popSlot h s⟩
  | uncache => exact ⟨n, h.of_agree (slotsAgree_uncacheSpan _ _ _ _)⟩
  | bgClaim => exact ⟨n, h.of_agree ((SlotsAgree.stamp _ _ _).trans (.setOwner _ _ _))⟩
  | bgNoFree => exact ⟨n, h.of_agree ((SlotsAgree.stamp _ _ _).trans (.setOwner _ _ _))⟩
  | bgSplice s sp objs => exact ⟨n, spansBelow_freeSpanSplice h s objs _⟩
  | bgLocked => exact ⟨n, spansBelow_freeSpanLocked h _ _ _⟩
  | refill | insert | write | newGen => exact ⟨n, h⟩

theorem spansBelow_reachable {sc : SizeClasses} {st : Heap} (hr : Reachable sc st) :
    ∃ n, st.SpansBelow n := by
  induction hr with
  | init => exact ⟨0, fun _ _ h => by cases h⟩
  | step _ hs ih =>
    obtain ⟨n, h⟩ := ih
    exact spansBelow_step h hs

/-- **`mCentral_Grow` can always go on**: past every span of a reachable heap lie a free span
record and a run of pages that no span holds, and `Grow` carves the run. -/
theorem grow_step {sc : SizeClasses} {st : Heap} (hr : Reachable sc st) {m c : ℕ}
    (hm : st.refill m = .grow c) : ∃ st' i, Step sc st st' ∧ st'.refill m = .grown c i := by
  obtain ⟨n, hn⟩ := spansBelow_reachable hr
  have hc := (slotInv_reachable sc hr).1.cls_of hm (by simp)
  obtain ⟨mem', sp, hg, -⟩ :=
    spanOK_mCentralGrow sc hc.1 hc.2 (Nat.succ_pos n) st.sweepgen st.mem
  refine ⟨_, n, .grow st m c (n + 1) n mem' sp hm (Nat.succ_pos n) ?_
    (fun t tp ht => .inr ?_) hg, by simp⟩
  · cases hs : st.spans n with
    | none => rfl
    | some tp => exact absurd (hn n tp hs).1 (lt_irrefl n)
  · have := (hn t tp ht).2
    omega

/-! ### Runs of one call -/

/-- Runs of the allocator, every thread's steps interleaved, while mcache `m`'s call of
`CacheSpan` for class `c` is in progress: `CallRun sc m c st₀ st retries scans` when the call
took `goto retry` `retries` times and scanned its lists `scans` times between `st₀` and `st`. -/
inductive CallRun (sc : SizeClasses) (m c : ℕ) (st₀ : Heap) : Heap → ℕ → ℕ → Prop
  | start : CallRun sc m c st₀ st₀ 0 0
  | step {st st' : Heap} {retries scans : ℕ} : CallRun sc m c st₀ st retries scans →
      (st.refill m).busy = some c → Step sc st st' →
      CallRun sc m c st₀ st' (retries + ((st.refill m).retried (st'.refill m)).toNat)
        (scans + ((st.refill m).scanned (st'.refill m)).toNat)

/-- The run invariant: the generation stays, the unswept set only shrinks and pays for every
retry, and the scans are one more than the retries, less one while the call waits at
`retry:`. -/
theorem callRun_count {sc : SizeClasses} {st₀ st : Heap} {m c retries scans : ℕ}
    {sg : UInt32} (hr : Reachable sc st₀) (h₀ : st₀.refill m = .scan c sg)
    (hrun : CallRun sc m c st₀ st retries scans) :
    Reachable sc st ∧ st.sweepgen = sg ∧ st.unswept c sg ⊆ st₀.unswept c sg ∧
      retries + (st.unswept c sg).card + (st.refill m).isSweepEmpty.toNat ≤
        (st₀.unswept c sg).card ∧
      scans + (st.refill m).isScan.toNat = retries + 1 := by
  induction hrun with
  | start =>
    exact ⟨hr, ((((listInv_reachable sc hr).mcache m).gen sg (by simp [h₀, Refill.gen]))).symm,
      subset_rfl, by simp [h₀, Refill.isSweepEmpty], by simp [h₀, Refill.isScan]⟩
  | step _ hb hs ih =>
    obtain ⟨hr', hg, hsub, hA, hB⟩ := ih
    have h := listInv_reachable sc hr'
    have hslot := (slotInv_reachable sc hr').2
    have hg' := sweepgen_step hs (Refill.ne_idle_of_busy hb)
    have hsub' := unswept_step hslot h hs hg' c
    obtain ⟨cA, cB⟩ := retry_count_step hslot h hs hb
    rw [hg] at hsub' cA
    exact ⟨hr'.step hs, hg'.trans hg, hsub'.trans hsub, by omega, by omega⟩

theorem CallRun.append {sc : SizeClasses} {m c : ℕ} {st₀ st st' : Heap} {r s r' s' : ℕ}
    (h : CallRun sc m c st₀ st r s) (h' : CallRun sc m c st st' r' s') :
    CallRun sc m c st₀ st' (r + r') (s + s') := by
  induction h' with
  | start => exact h
  | step _ hb hs ih =>
    rw [← Nat.add_assoc, ← Nat.add_assoc]
    exact ih.step hb hs

/-! ### The call returns -/

/-- How many steps of its own take the call from a phase to `return` if it does not retry:
`retry:` 4, `Grow` 3, a sweep or `Grow`'s return 2, `havespan:` 1. -/
def Refill.phase : Refill → ℕ
  | .scan .. => 4
  | .grow _ => 3
  | .sweepNonempty .. => 2
  | .sweepEmpty .. => 2
  | .grown .. => 2
  | .havespan .. => 1
  | _ => 0

theorem refill_cacheSpanScan_phase (st : Heap) (m c : ℕ) (sg : UInt32) :
    ((cacheSpanScan st m c sg).refill m).busy = some c ∧
      ((cacheSpanScan st m c sg).refill m).phase < 4 := by
  unfold cacheSpanScan; repeat' split
  all_goals simp [Refill.busy, Refill.phase]

/-- **The call always has a step of its own** in a reachable heap: to `return`, or to a phase
of the call that is lower, or from the sweep of a span of `c.empty` back to `retry:`. -/
theorem own_step {sc : SizeClasses} {st : Heap} (hr : Reachable sc st) {m c : ℕ}
    (hb : (st.refill m).busy = some c) :
    ∃ st', Step sc st st' ∧ ((st'.refill m).busy = some c ∨ st'.refill m = .popping c) ∧
      (st'.refill m).phase <
        (st.refill m).phase + 3 * ((st.refill m).retried (st'.refill m)).toNat := by
  cases hrm : st.refill m <;> simp only [hrm, Refill.busy, Option.some.injEq, reduceCtorEq] at hb
  case scan c sg =>
    subst hb
    obtain ⟨h₁, h₂⟩ := refill_cacheSpanScan_phase st m c sg
    exact ⟨_, .scan st m c sg hrm, .inl h₁, Nat.lt_of_lt_of_le h₂ (Nat.le_add_right 4 _)⟩
  case sweepNonempty c s sg =>
    subst hb
    exact ⟨_, .sweep st m _ c s sg [] hrm (.inl rfl) (.inl rfl),
      .inl (by simp [afterSweep, Refill.busy]), by simp [afterSweep, Refill.phase, Refill.retried,
        Refill.isSweepEmpty]⟩
  case sweepEmpty c s sg =>
    subst hb
    refine ⟨_, .sweep st m _ c s sg [] hrm (.inr rfl) (.inl rfl), ?_⟩
    simp only [afterSweep]
    split_ifs <;> simp [Refill.busy, Refill.phase, Refill.retried, Refill.isSweepEmpty,
      Refill.isScan]
  case grow c =>
    subst hb
    obtain ⟨st', i, hs, h'⟩ := grow_step hr hrm
    exact ⟨st', hs, .inl (by simp [h', Refill.busy]),
      by simp [h', Refill.phase, Refill.retried, Refill.isSweepEmpty]⟩
  case grown c s =>
    subst hb
    exact ⟨_, .insert st m c s hrm, .inl (by simp [Refill.busy]),
      by simp [Refill.phase, Refill.retried, Refill.isSweepEmpty]⟩
  case havespan c s =>
    subst hb
    obtain ⟨sp, hs, hcap, hfl⟩ :=
      (listInv_reachable sc hr).havespan_ok (slotInv_reachable sc hr).2 hrm
    exact ⟨_, .haveSpan st m c s hrm, .inr (by simp [haveSpan, hs, hcap, hfl]),
      by simp [haveSpan, hs, hcap, hfl, Refill.phase]⟩

/-- **A call in progress can always return**, by steps of its own, each to a state of lower
rank: its phase, plus three for each span it can still claim or is sweeping from `c.empty`. -/
theorem callRun_returns {sc : SizeClasses} {m c : ℕ} : ∀ (k : ℕ) {st : Heap},
    Reachable sc st → (st.refill m).busy = some c →
    (st.refill m).phase + 3 * ((st.unswept c st.sweepgen).card + (st.refill m).isSweepEmpty.toNat)
      < k →
    ∃ st' retries scans, CallRun sc m c st st' retries scans ∧ st'.refill m = .popping c
  | 0, _, _, _, hk => absurd hk (Nat.not_lt_zero _)
  | k + 1, st, hr, hb, hk => by
    obtain ⟨st', hs, hb' | hp, hlt⟩ := own_step hr hb
    · obtain ⟨hA, -⟩ :=
        retry_count_step (slotInv_reachable sc hr).2 (listInv_reachable sc hr) hs hb
      have hg := sweepgen_step hs (Refill.ne_idle_of_busy hb)
      obtain ⟨st'', r, s, hrun, hret⟩ :=
        callRun_returns k (hr.step hs) hb' (by rw [hg]; omega)
      exact ⟨st'', _, _, (CallRun.start.step hb hs).append hrun, hret⟩
    · exact ⟨st', _, _, CallRun.start.step hb hs, hp⟩

/-- **`mCentral_CacheSpan` retries a bounded number of times, and returns.**  From any
reachable state in which mcache `m` is at `retry:` of a call for class `c` in generation `sg`,
over any interleaving of the other threads' steps: the spans of `c` stamped `sg-2` only leave
the set they formed at the start; each `goto retry` has taken one of them out for good, so the
call retries at most as often as the set had members, and scans its lists at most once more.
Each scan leaves `retry:`, and wherever the run has got to, the call, if it has not returned
yet, can go on to `return` by its own steps, with at most that many scans in all. -/
theorem cacheSpan_retries (sc : SizeClasses) {st₀ st : Heap} {m c retries scans : ℕ}
    {sg : UInt32} (hr : Reachable sc st₀) (h₀ : st₀.refill m = .scan c sg)
    (hrun : CallRun sc m c st₀ st retries scans) :
    st.unswept c sg ⊆ st₀.unswept c sg ∧
      retries + (st.unswept c sg).card ≤ (st₀.unswept c sg).card ∧
      scans ≤ (st₀.unswept c sg).card + 1 ∧
      (∀ sg', st.refill m = .scan c sg' → ∀ st', Step sc st st' →
        st'.refill m = st.refill m ∨ (st'.refill m).isScan = false) ∧
      ((st.refill m).busy = some c → ∃ st' retries' scans',
        CallRun sc m c st st' retries' scans' ∧ st'.refill m = .popping c ∧
          scans + scans' ≤ (st₀.unswept c sg).card + 1) := by
  obtain ⟨hr', -, hsub, hA, hB⟩ := callRun_count hr h₀ hrun
  refine ⟨hsub, by omega, by omega, fun sg' hsc st' hs => ?_, fun hb => ?_⟩
  · have hb : (st.refill m).busy = some c := by simp [hsc, Refill.busy]
    rcases refill_step_cases (listInv_reachable sc hr') hs hb with heq | ⟨-, -, hns, -⟩ |
        ⟨_, _, hse, -⟩ | ⟨hns, -⟩
    · exact .inl heq
    · exact .inr hns
    · rw [hsc] at hse; cases hse
    · rw [hsc] at hns; cases hns
  · obtain ⟨st', r', s', hrun', hret⟩ := callRun_returns _ hr' hb (Nat.lt_succ_self _)
    obtain ⟨-, -, -, hA', hB'⟩ := callRun_count hr h₀ (hrun.append hrun')
    refine ⟨st', r', s', hrun', hret, ?_⟩
    simp only [hret, Refill.isScan, Bool.toNat_false, add_zero] at hB'
    omega

/-- Class `50` has one 8192-byte slot a page.  A span of it filled and handed back in generation
`2` is stamped `sg-2` in generation `4`, and a call at `retry:` there claims it from `c.empty`,
sweeps it, finds it still full, retries, and grows: one retry against one unswept span, and two
scans, as many as the bound allows. -/
theorem cacheSpan_retries_one_retry :
    ∃ st₀ st retries scans, Reachable goSizeClasses st₀ ∧ st₀.refill 0 = .scan 50 4 ∧
      st₀.unswept 50 4 = {0} ∧ CallRun goSizeClasses 0 50 st₀ st retries scans ∧
      retries = 1 ∧ scans = 2 ∧ st.refill 0 = .popping 50 ∧
      retries + (st.unswept 50 4).card ≤ (st₀.unswept 50 4).card ∧
      scans ≤ (st₀.unswept 50 4).card + 1 := by
  -- a span of class `50` filled and handed back in generation `2`, then a refill in generation `4`
  have h₀ := Reachable.step (Reachable.step (Reachable.step (Reachable.step (Reachable.step
    (Reachable.step (Reachable.step (Reachable.step (Reachable.step
    (@Reachable.init goSizeClasses (fun _ => 0) 2)
      (.refill _ 0 50 (by decide) (by decide) rfl rfl))
      (.scan _ 0 50 2 rfl))
      (.grow _ 0 50 1 0 _ _ rfl (by decide) rfl (fun _ _ h => by cases h) rfl))
      (.insert _ 0 50 0 rfl))
      (.haveSpan _ 0 50 0 rfl))
      (.pop _ 0 50 0 _ (.inr rfl) rfl rfl (by decide)))
      (.uncache _ 0 50 0 rfl rfl))
      (.newGen _ (fun m => by rcases m with _ | m <;> rfl)
        (fun m c => by
          rcases m with _ | m
          · by_cases hc : c = 50
            · subst hc; rfl
            · show Function.update (_ : ℕ → Option ℕ) 50 none c = none
              rw [Function.update_noteq hc]
              show Function.update (_ : ℕ → Option ℕ) 50 (some 0) c = none
              rw [Function.update_noteq hc]; rfl
          · rfl)
        (fun s => by rcases s with _ | s <;> rfl)
        (fun s sp h => by rcases s with _ | s <;> cases h; rfl)))
      (.refill _ 0 50 (by decide) (by decide) rfl rfl)
  -- the call claims the span, sweeps it, finds it full, retries, and grows
  exact (fun hrun => ⟨_, _, _, _, h₀, rfl, by decide, hrun, by rfl, by rfl, by rfl,
    (@cacheSpan_retries goSizeClasses _ _ 0 50 _ _ 4 h₀ rfl hrun).2.1,
    (@cacheSpan_retries goSizeClasses _ _ 0 50 _ _ 4 h₀ rfl hrun).2.2.1⟩)
    (.step (.step (.step (.step (.step (.step .start rfl (.scan _ 0 50 4 rfl)) rfl
      (.sweep _ 0 _ 50 0 4 [] rfl (.inr rfl) (.inl rfl))) rfl
      (.scan _ 0 50 4 rfl)) rfl
      (.grow _ 0 50 2 1 _ _ rfl (by decide) rfl
        (fun t _ h => by rcases t with _ | t <;> cases h; exact .inr (by decide)) rfl)) rfl
      (.insert _ 0 50 1 rfl)) rfl
      (.haveSpan _ 0 50 1 rfl))

end GoRuntime
