/-
**The central lists keep their discipline.**

`mcentral` keeps each span of a class on one of two lists, `c.nonempty` (spans with a free
slot) and `c.empty` (spans with none, or cached in an mcache), and `mCentral_CacheSpan` relies
on it: it takes spans only from these lists, skips those a sweeper has claimed, and throws
`"empty span"` or `"freelist empty"` if the span it ends with has no free slot.  Over every run
of the machine of `GoRuntime.Central.Machine`:

* every span of the heap is on exactly one list of its own class, once, except the span that
  `mCentral_Grow` has just returned and that is not yet inserted;
* every span on `c.nonempty` is uncached and has a free slot;
* a cached span stays on `c.empty`, is the `alloc` entry of exactly one mcache, and no call of
  `CacheSpan` holds it; a span returned to the heap is on no list;
* no `throw` of the source is reached, in particular neither check at `havespan:`.

The invariant, `GoRuntime.ListInv`, says where each span may be given who holds it
(`GoRuntime.PlacedAt`) and what each mcache's refill and `alloc` array say about the spans they
name (`GoRuntime.McacheOK`).  A step changes one span and one mcache; every other span and
mcache keeps its facts because the step agrees with the old state on all they read
(`GoRuntime.AgreeAt`, `GoRuntime.McAgree`), so each step lemma checks only what it touches.

Main definitions:

* `GoRuntime.PlacedAt`, `GoRuntime.McacheOK`, `GoRuntime.ListInv` — the invariant;
* `GoRuntime.ListDiscipline` — what it says about the lists.

Main results:

* `GoRuntime.listInv_step`, `GoRuntime.listInv_reachable` — every step keeps it;
* `GoRuntime.list_discipline` — **every reachable heap keeps the list discipline**.
-/

import GoRuntime.Central.Slots

set_option autoImplicit false

namespace GoRuntime

/-! ### What a refill holds -/

/-- The span a refill holds: the one it claimed, grew, or is about to return. -/
def Refill.span : Refill → Option ℕ
  | .sweepNonempty _ s _ => some s
  | .sweepEmpty _ s _ => some s
  | .grown _ s => some s
  | .havespan _ s => some s
  | _ => none

/-- The generation a refill read on entry, while it still compares spans against it. -/
def Refill.gen : Refill → Option UInt32
  | .scan _ sg => some sg
  | .sweepNonempty _ _ sg => some sg
  | .sweepEmpty _ _ sg => some sg
  | _ => none

/-- The class of a `CacheSpan` call that has not returned yet. -/
def Refill.busy : Refill → Option ℕ
  | .scan c _ => some c
  | .sweepNonempty c _ _ => some c
  | .sweepEmpty c _ _ => some c
  | .grow c => some c
  | .grown c _ => some c
  | .havespan c _ => some c
  | _ => none

/-- The three generations a span can carry in one cycle are distinct. -/
theorem gen_ne (g : UInt32) : g - 2 ≠ g ∧ g - 2 ≠ g - 1 ∧ g - 1 ≠ g :=
  ⟨fun h => absurd (sub_eq_self.mp h) (by decide),
    fun h => absurd (sub_right_inj.mp h) (by decide),
    fun h => absurd (sub_eq_self.mp h) (by decide)⟩

/-- The span the scans of `CacheSpan` pick is on the list and not claimed by another sweeper. -/
theorem firstUnclaimed_spec {spans : ℕ → Option MSpan} {sg : UInt32} {l : List ℕ} {s : ℕ}
    (h : firstUnclaimed spans sg l = some s) :
    s ∈ l ∧ (spans s).map MSpan.sweepgen ≠ some (sg - 1) := by
  induction l with
  | nil => simp [firstUnclaimed] at h
  | cons a l ih =>
      simp only [firstUnclaimed] at h
      split at h
      · exact ⟨List.mem_cons_of_mem a (ih h).1, (ih h).2⟩
      · cases h
        exact ⟨List.mem_cons_self _ _, by assumption⟩

/-- A partitioned span has a free slot exactly when its free list is not nil. -/
theorem SpanOK.freelist_ne_zero_iff {mem : ℕ → ℕ} {sp : MSpan} {live : List ℕ}
    (h : SpanOK mem sp live) : sp.freelist ≠ 0 ↔ sp.ref.toNat < sp.cap := by
  obtain ⟨fl, hc, -⟩ := h.free
  have hlen := h.ref_add_length hc
  cases fl with
  | nil => simp only [chain_nil] at hc; simp_all
  | cons a l =>
      rw [hc.1]
      simp only [List.length_cons] at hlen
      exact ⟨fun _ => by omega, fun _ => hc.2.1⟩

/-! ### Where a span may be -/

/-- How often span `t` is on `c.nonempty` and on `c.empty`. -/
def Heap.places (st : Heap) (c t : ℕ) : ℕ × ℕ := ((st.nonempty c).count t, (st.empty c).count t)

@[simp] theorem Heap.places_setSpan (st : Heap) (s : ℕ) (sp : MSpan) :
    (st.setSpan s sp).places = st.places := rfl
@[simp] theorem Heap.places_setOwner (st : Heap) (s : ℕ) (o : Owner) :
    (st.setOwner s o).places = st.places := rfl
@[simp] theorem Heap.places_setRefill (st : Heap) (m : ℕ) (r : Refill) :
    (st.setRefill m r).places = st.places := rfl
@[simp] theorem Heap.places_setLive (st : Heap) (s : ℕ) (l : List ℕ) :
    (st.setLive s l).places = st.places := rfl
@[simp] theorem Heap.places_setAlloc (st : Heap) (m c : ℕ) (v : Option ℕ) :
    (st.setAlloc m c v).places = st.places := rfl
@[simp] theorem Heap.places_throw (st : Heap) (msg : String) : (st.throw msg).places = st.places :=
  rfl
@[simp] theorem Heap.places_stamp (st : Heap) (s : ℕ) (g : UInt32) :
    (st.stamp s g).places = st.places := by
  funext c t; simp [Heap.places]

/-- On exactly one list of its class, once: on `c.nonempty` with a free slot, or on `c.empty`. -/
def Listed (st : Heap) (t : ℕ) (sp : MSpan) : Prop :=
  st.places sp.sizeclass t = (1, 0) ∧ sp.freelist ≠ 0 ∨ st.places sp.sizeclass t = (0, 1)

/-- A listed span on `c.nonempty` has a free slot. -/
theorem Listed.freelist_ne_zero {st : Heap} {t : ℕ} {sp : MSpan} (hl : Listed st t sp)
    (hin : t ∈ st.nonempty sp.sizeclass) : sp.freelist ≠ 0 := by
  rcases hl with ⟨-, hfl⟩ | hpl
  · exact hfl
  · simp only [Heap.places, Prod.mk.injEq, List.count_eq_zero] at hpl
    exact absurd hin hpl.1

/-- Where a span held by a refill in phase `r` may be, with places `p` in generation `g`: a
claimed span is on `c.empty`, stamped `sg-1`; a grown one on no list; one at `havespan:` on
`c.empty` with a free slot. -/
def RefillPlaced (g : UInt32) (t : ℕ) (sp : MSpan) (p : ℕ × ℕ) : Refill → Prop
  | .sweepNonempty c s _ => s = t ∧ c = sp.sizeclass ∧ p = (0, 1) ∧ sp.incache = false ∧
      sp.sweepgen = g - 1 ∧ sp.freelist ≠ 0
  | .sweepEmpty c s _ => s = t ∧ c = sp.sizeclass ∧ p = (0, 1) ∧ sp.incache = false ∧
      sp.sweepgen = g - 1
  | .grown c s => s = t ∧ c = sp.sizeclass ∧ p = (0, 0) ∧ sp.incache = false ∧
      sp.sweepgen = g ∧ sp.freelist ≠ 0
  | .havespan c s => s = t ∧ c = sp.sizeclass ∧ p = (0, 1) ∧ sp.incache = false ∧
      sp.sweepgen = g ∧ sp.freelist ≠ 0
  | _ => False

/-- **Where span `t` with record `sp` may be, by who holds it.**  The central lists and the
background sweeper keep it `Listed` and uncached, stamped `sg` or `sg-2` while unclaimed and
`sg-1` while claimed; a cached span sits on `c.empty`, stamped `sg`, in its mcache's `alloc`
entry; a refill's span is where `RefillPlaced` says. -/
def PlacedAt (st : Heap) (t : ℕ) (sp : MSpan) : Prop :=
  match st.owner t with
  | .central => Listed st t sp ∧ sp.incache = false ∧
      (sp.sweepgen = st.sweepgen ∨ sp.sweepgen = st.sweepgen - 2)
  | .sweeping => Listed st t sp ∧ sp.incache = false ∧ sp.sweepgen = st.sweepgen - 1
  | .freeing _ => Listed st t sp ∧ sp.incache = false ∧ sp.sweepgen = st.sweepgen - 1 ∧
      sp.freelist ≠ 0
  | .cache m => st.places sp.sizeclass t = (0, 1) ∧ sp.incache = true ∧
      sp.sweepgen = st.sweepgen ∧ st.alloc m sp.sizeclass = some t
  | .refill m => RefillPlaced st.sweepgen t sp (st.places sp.sizeclass t) (st.refill m)

/-- The invariant's facts about span `t`: only spans of class `c` are on the lists of `c`, and
a span of the heap is where its holder says. -/
def SpanFacts (st : Heap) (t : ℕ) : Prop :=
  (∀ c, t ∈ st.nonempty c ∨ t ∈ st.empty c → ∃ sp, st.spans t = some sp ∧ sp.sizeclass = c) ∧
  ∀ sp, st.spans t = some sp → PlacedAt st t sp

/-- What mcache `m`'s refill and `alloc` array say about the spans they name. -/
structure McacheOK (st : Heap) (m : ℕ) : Prop where
  held : ∀ t, (st.refill m).span = some t → st.owner t = .refill m ∧ (st.spans t).isSome
  gen : ∀ g, (st.refill m).gen = some g → g = st.sweepgen
  busy : ∀ c, (st.refill m).busy = some c → st.alloc m c = none
  cached : ∀ c t, st.alloc m c = some t → st.owner t = .cache m ∧ ∃ sp, st.spans t = some sp ∧
    sp.sizeclass = c ∧ (st.refill m ≠ .popping c → sp.ref.toNat ≠ 0)
  popping : ∀ c, st.refill m = .popping c →
    ∃ t sp, st.alloc m c = some t ∧ st.spans t = some sp ∧ sp.freelist ≠ 0

/-- **The list invariant.** -/
structure ListInv (st : Heap) : Prop where
  span : ∀ t, SpanFacts st t
  mcache : ∀ m, McacheOK st m
  thrown : st.thrown = none

theorem listInv_init (mem : ℕ → ℕ) (sg : UInt32) : ListInv (Heap.init mem sg) :=
  ⟨fun _ => ⟨by simp [Heap.init], by simp [Heap.init]⟩,
    fun _ => ⟨by simp [Heap.init, Refill.span], by simp [Heap.init, Refill.gen],
      by simp [Heap.init, Refill.busy], by simp [Heap.init], by simp [Heap.init]⟩, rfl⟩

/-! ### Reading the invariant -/

namespace PlacedAt

variable {st : Heap} {t : ℕ} {sp : MSpan}

/-- What a span's holder fixes of its stamp and of its place on `c.nonempty`, unless the
central lists hold it: it is stamped `sg` or `sg-1`, and only a claimed one (`sg-1`) is on
`c.nonempty`. -/
theorem stamp_cases (hp : PlacedAt st t sp) :
    st.owner t = .central ∨ (sp.sweepgen = st.sweepgen ∨ sp.sweepgen = st.sweepgen - 1) ∧
      ((st.places sp.sizeclass t).1 = 0 ∨ sp.sweepgen = st.sweepgen - 1) := by
  cases ho : st.owner t with
  | central => exact .inl rfl
  | sweeping => simp only [PlacedAt, ho] at hp; exact .inr ⟨.inr hp.2.2, .inr hp.2.2⟩
  | freeing w => simp only [PlacedAt, ho] at hp; exact .inr ⟨.inr hp.2.2.1, .inr hp.2.2.1⟩
  | cache m => simp only [PlacedAt, ho] at hp; exact .inr ⟨.inl hp.2.2.1, .inl (by simp [hp.1])⟩
  | refill m =>
      simp only [PlacedAt, ho] at hp
      right
      cases hr : st.refill m <;> simp only [hr, RefillPlaced] at hp
      · exact ⟨.inr hp.2.2.2.2.1, .inl (by simp [hp.2.2.1])⟩
      · exact ⟨.inr hp.2.2.2.2, .inl (by simp [hp.2.2.1])⟩
      · exact ⟨.inl hp.2.2.2.2.1, .inl (by simp [hp.2.2.1])⟩
      · exact ⟨.inl hp.2.2.2.2.1, .inl (by simp [hp.2.2.1])⟩

/-- Only an unclaimed span of the central lists is stamped `sg-2`. -/
theorem owner_of_sub_two (hp : PlacedAt st t sp) (h : sp.sweepgen = st.sweepgen - 2) :
    st.owner t = .central := by
  obtain ⟨h1, h2, -⟩ := gen_ne st.sweepgen
  rcases hp.stamp_cases with ho | ⟨hg | hg, -⟩
  · exact ho
  · exact absurd (h.symm.trans hg) h1
  · exact absurd (h.symm.trans hg) h2

/-- A span on `c.nonempty` that is not stamped `sg-1` is held by the central lists. -/
theorem owner_of_nonempty (hp : PlacedAt st t sp) (hne : t ∈ st.nonempty sp.sizeclass)
    (h : sp.sweepgen ≠ st.sweepgen - 1) : st.owner t = .central := by
  rcases hp.stamp_cases with ho | ⟨-, h0 | hg⟩
  · exact ho
  · simp [Heap.places, List.count_eq_zero, hne] at h0
  · exact absurd hg h

/-- A span held by a refill is the one its phase names. -/
theorem span_of_refill (hp : PlacedAt st t sp) {m : ℕ} (ho : st.owner t = .refill m) :
    (st.refill m).span = some t := by
  simp only [PlacedAt, ho] at hp
  cases h : st.refill m <;> simp_all [RefillPlaced, Refill.span]

end PlacedAt

namespace ListInv

variable {st : Heap} (h : ListInv st)
include h

theorem placed {t : ℕ} {sp : MSpan} (hs : st.spans t = some sp) : PlacedAt st t sp :=
  (h.span t).2 sp hs

theorem listed {c t : ℕ} (ht : t ∈ st.nonempty c ∨ t ∈ st.empty c) :
    ∃ sp, st.spans t = some sp ∧ sp.sizeclass = c :=
  (h.span t).1 c ht

/-- No refill holds a span its phase does not name. -/
theorem owner_ne_refill {t m : ℕ} {sp : MSpan} (hs : st.spans t = some sp)
    (hm : (st.refill m).span ≠ some t) : st.owner t ≠ .refill m :=
  fun ho => hm ((h.placed hs).span_of_refill ho)

/-- A cached span is its mcache's `alloc` entry for its class. -/
theorem alloc_of_cache {t m : ℕ} {sp : MSpan} (hs : st.spans t = some sp)
    (ho : st.owner t = .cache m) : st.alloc m sp.sizeclass = some t := by
  have := h.placed hs
  simp only [PlacedAt, ho] at this
  exact this.2.2.2

end ListInv

/-! ### Steps that keep the facts of other spans and mcaches -/

/-- `st'` agrees with `st` on all that the facts of span `t` read. -/
structure AgreeAt (st st' : Heap) (t : ℕ) : Prop where
  spans : st'.spans t = st.spans t
  owner : st'.owner t = st.owner t
  places : ∀ c, st'.places c t = st.places c t
  sweepgen : st'.sweepgen = st.sweepgen
  refill : ∀ m sp, st.spans t = some sp → st.owner t = .refill m → st'.refill m = st.refill m
  alloc : ∀ m sp, st.spans t = some sp → st.owner t = .cache m →
    st'.alloc m sp.sizeclass = st.alloc m sp.sizeclass

theorem SpanFacts.of_agree {st st' : Heap} {t : ℕ} (h : SpanFacts st t) (ha : AgreeAt st st' t) :
    SpanFacts st' t := by
  have hmem : ∀ c, (t ∈ st'.nonempty c ∨ t ∈ st'.empty c) ↔ (t ∈ st.nonempty c ∨ t ∈ st.empty c) :=
    fun c => by
      have := ha.places c
      simp only [Heap.places, Prod.mk.injEq] at this
      simp only [← List.count_pos_iff, this]
  refine ⟨fun c hc => ha.spans ▸ h.1 c ((hmem c).1 hc), fun sp hs => ?_⟩
  rw [ha.spans] at hs
  have hp := h.2 sp hs
  unfold PlacedAt Listed at hp ⊢
  rw [ha.owner, ha.places, ha.sweepgen]
  cases ho : st.owner t with
  | refill m => simp only [ho] at hp ⊢; rwa [ha.refill m sp hs ho]
  | cache m => simp only [ho] at hp ⊢; rwa [ha.alloc m sp hs ho]
  | _ => simpa only [ho] using hp

/-- `st'` agrees with `st` on all that the facts of mcache `m` read. -/
structure McAgree (st st' : Heap) (m : ℕ) : Prop where
  refill : st'.refill m = st.refill m
  alloc : st'.alloc m = st.alloc m
  sweepgen : st'.sweepgen = st.sweepgen
  spans : ∀ t, (st.spans t).isSome → st.owner t = .refill m ∨ st.owner t = .cache m →
    st'.owner t = st.owner t ∧ st'.spans t = st.spans t

theorem McacheOK.of_agree {st st' : Heap} {m : ℕ} (h : McacheOK st m) (ha : McAgree st st' m) :
    McacheOK st' m where
  held t ht := by
    rw [ha.refill] at ht
    obtain ⟨ho, hs⟩ := h.held t ht
    obtain ⟨ho', hs'⟩ := ha.spans t hs (.inl ho)
    exact ⟨ho'.trans ho, hs' ▸ hs⟩
  gen g hg := by rw [ha.refill] at hg; rw [ha.sweepgen]; exact h.gen g hg
  busy c hc := by rw [ha.refill] at hc; rw [ha.alloc]; exact h.busy c hc
  cached c t ht := by
    rw [ha.alloc] at ht
    obtain ⟨ho, sp, hs, hsp⟩ := h.cached c t ht
    obtain ⟨ho', hs'⟩ := ha.spans t (by simp [hs]) (.inr ho)
    rw [ha.refill, hs', ho']
    exact ⟨ho, sp, hs, hsp⟩
  popping c hc := by
    rw [ha.refill] at hc
    obtain ⟨t, sp, ht, hs, hne⟩ := h.popping c hc
    obtain ⟨-, hs'⟩ := ha.spans t (by simp [hs]) (.inr (h.cached c t ht).1)
    exact ⟨t, sp, by rw [ha.alloc]; exact ht, hs' ▸ hs, hne⟩

/-- A step that agrees with `st` away from span `s` leaves mcache `m`'s facts alone if it keeps
`m`'s entries and `s` was not `m`'s. -/
theorem McAgree.of_agreeAt {st st' : Heap} {s m : ℕ} (hr : st'.refill m = st.refill m)
    (ha : st'.alloc m = st.alloc m) (hg : st'.sweepgen = st.sweepgen)
    (hs : ∀ sp, st.spans s = some sp → st.owner s ≠ .refill m ∧ st.owner s ≠ .cache m)
    (ht : ∀ t, t ≠ s → AgreeAt st st' t) : McAgree st st' m :=
  ⟨hr, ha, hg, fun t hts ho => by
    have hts : t ≠ s := by
      rintro rfl
      obtain ⟨sp, hsp⟩ := Option.isSome_iff_exists.mp hts
      rcases ho with ho | ho <;> simp_all
    exact ⟨(ht t hts).owner, (ht t hts).spans⟩⟩

namespace AgreeAt

variable {st st₁ st₂ : Heap} {t : ℕ}

theorem refl (st : Heap) (t : ℕ) : AgreeAt st st t :=
  ⟨rfl, rfl, fun _ => rfl, rfl, fun _ _ _ _ => rfl, fun _ _ _ _ => rfl⟩

theorem trans (h₁ : AgreeAt st st₁ t) (h₂ : AgreeAt st₁ st₂ t) : AgreeAt st st₂ t :=
  ⟨h₂.spans.trans h₁.spans, h₂.owner.trans h₁.owner, fun c => (h₂.places c).trans (h₁.places c),
    h₂.sweepgen.trans h₁.sweepgen,
    fun m sp hs ho =>
      (h₂.refill m sp (h₁.spans.trans hs) (h₁.owner.trans ho)).trans (h₁.refill m sp hs ho),
    fun m sp hs ho =>
      (h₂.alloc m sp (h₁.spans.trans hs) (h₁.owner.trans ho)).trans (h₁.alloc m sp hs ho)⟩

/-- A step that keeps everything the facts of spans read. -/
theorem of_eq (hsp : st₁.spans = st.spans) (ho : st₁.owner = st.owner)
    (hn : st₁.nonempty = st.nonempty) (he : st₁.empty = st.empty)
    (hg : st₁.sweepgen = st.sweepgen) (hr : st₁.refill = st.refill) (ha : st₁.alloc = st.alloc) :
    AgreeAt st st₁ t :=
  ⟨by rw [hsp], by rw [ho], fun _ => by simp [Heap.places, hn, he], hg,
    fun _ _ _ _ => by rw [hr], fun _ _ _ _ => by rw [ha]⟩

theorem setSpan {s : ℕ} (sp : MSpan) (h : t ≠ s) : AgreeAt st (st.setSpan s sp) t :=
  ⟨by simp [h], rfl, fun _ => rfl, rfl, fun _ _ _ _ => rfl, fun _ _ _ _ => rfl⟩

theorem setOwner {s : ℕ} (o : Owner) (h : t ≠ s) : AgreeAt st (st.setOwner s o) t :=
  ⟨rfl, by simp [h], fun _ => rfl, rfl, fun _ _ _ _ => rfl, fun _ _ _ _ => rfl⟩

theorem setLive (s : ℕ) (l : List ℕ) : AgreeAt st (st.setLive s l) t :=
  of_eq rfl rfl rfl rfl rfl rfl rfl

theorem setRefill {m : ℕ} (r : Refill) (h : ∀ sp, st.spans t = some sp → st.owner t ≠ .refill m) :
    AgreeAt st (st.setRefill m r) t :=
  ⟨rfl, rfl, fun _ => rfl, rfl, fun m' sp hs ho => by
    rw [Heap.setRefill_refill, Function.update_noteq]
    rintro rfl; exact h sp hs ho, fun _ _ _ _ => rfl⟩

theorem setAlloc {m c : ℕ} (v : Option ℕ)
    (h : ∀ sp, st.spans t = some sp → st.owner t = .cache m → sp.sizeclass ≠ c) :
    AgreeAt st (st.setAlloc m c v) t :=
  ⟨rfl, rfl, fun _ => rfl, rfl, fun _ _ _ _ => rfl, fun m' sp hs ho => by
    by_cases hm : m' = m
    · subst hm; simp [Function.update_noteq (h sp hs ho)]
    · simp [Function.update_noteq hm]⟩

theorem stamp {s : ℕ} (g : UInt32) (h : t ≠ s) : AgreeAt st (st.stamp s g) t :=
  ⟨by simp [h], by simp, fun _ => by simp [Heap.places], by simp, fun _ _ _ _ => by simp,
    fun _ _ _ _ => by simp⟩

theorem moveToEmpty {c s : ℕ} (h : t ≠ s) : AgreeAt st (st.moveToEmpty c s) t := by
  refine ⟨rfl, rfl, fun c' => ?_, rfl, fun _ _ _ _ => rfl, fun _ _ _ _ => rfl⟩
  by_cases hc : c' = c
  · subst hc; simp [Heap.places, List.count_erase_of_ne h, List.count_singleton', Ne.symm h]
  · simp [Heap.places, Function.update_noteq hc]

theorem moveToNonempty {c s : ℕ} (h : t ≠ s) : AgreeAt st (st.moveToNonempty c s) t := by
  refine ⟨rfl, rfl, fun c' => ?_, rfl, fun _ _ _ _ => rfl, fun _ _ _ _ => rfl⟩
  by_cases hc : c' = c
  · subst hc; simp [Heap.places, List.count_erase_of_ne h, List.count_cons, Ne.symm h]
  · simp [Heap.places, Function.update_noteq hc]

theorem remove {c s : ℕ} (h : t ≠ s) : AgreeAt st (st.remove c s) t := by
  refine ⟨rfl, rfl, fun c' => ?_, rfl, fun _ _ _ _ => rfl, fun _ _ _ _ => rfl⟩
  by_cases hc : c' = c
  · subst hc; simp [Heap.places, List.count_erase_of_ne h]
  · simp [Heap.places, Function.update_noteq hc]

end AgreeAt

/-! ### Places of a span its step moves -/

section Moves

variable (st : Heap) (c s : ℕ)

theorem places_moveToEmpty_self (h : st.places c s = (1, 0) ∨ st.places c s = (0, 1)) :
    (st.moveToEmpty c s).places c s = (0, 1) := by
  simp only [Heap.places, Prod.mk.injEq] at h
  simp only [Heap.places, Heap.moveToEmpty_nonempty, Heap.moveToEmpty_empty,
    Function.update_same, List.count_erase_self, List.count_append, List.count_singleton',
    if_true, Prod.mk.injEq]
  omega

theorem places_moveToNonempty_self (h : st.places c s = (1, 0) ∨ st.places c s = (0, 1)) :
    (st.moveToNonempty c s).places c s = (1, 0) := by
  simp only [Heap.places, Prod.mk.injEq] at h
  simp only [Heap.places, Heap.moveToNonempty_nonempty, Heap.moveToNonempty_empty,
    Function.update_same, List.count_erase_self, List.count_cons_self, Prod.mk.injEq]
  omega

theorem places_remove_self (h : st.places c s = (1, 0) ∨ st.places c s = (0, 1)) :
    (st.remove c s).places c s = (0, 0) := by
  simp only [Heap.places, Prod.mk.injEq] at h
  simp only [Heap.places, Heap.remove_nonempty, Heap.remove_empty, Function.update_same,
    List.count_erase_self, Prod.mk.injEq]
  omega

end Moves

/-! ### Assembling the invariant after a step -/

/-- Mcache `m`'s facts after its refill moves from one phase of `CacheSpan` to another phase
`r` of it, with its `alloc` array and its cached spans kept. -/
theorem McacheOK.of_refill {st st' : Heap} {m : ℕ} {r : Refill} (h : McacheOK st m)
    (hold : ∀ c, st.refill m ≠ .popping c) (hnew : ∀ c, r ≠ .popping c)
    (hr : st'.refill m = r) (ha : st'.alloc m = st.alloc m) (hg : st'.sweepgen = st.sweepgen)
    (hheld : ∀ t, r.span = some t → st'.owner t = .refill m ∧ (st'.spans t).isSome)
    (hgen : ∀ g, r.gen = some g → g = st.sweepgen)
    (hbusy : ∀ c, r.busy = some c → st.alloc m c = none)
    (hcached : ∀ c t, st.alloc m c = some t → st'.owner t = st.owner t ∧ st'.spans t = st.spans t) :
    McacheOK st' m where
  held t ht := hheld t (hr ▸ ht)
  gen g hg' := hg ▸ hgen g (hr ▸ hg')
  busy c hc := ha ▸ hbusy c (hr ▸ hc)
  cached c t ht := by
    rw [ha] at ht
    obtain ⟨ho, sp, hs, hc, hre⟩ := h.cached c t ht
    obtain ⟨ho', hs'⟩ := hcached c t ht
    exact ⟨ho'.trans ho, sp, hs'.trans hs, hc, fun _ => hre (hold c)⟩
  popping c hc := absurd (hr ▸ hc) (hnew c)

namespace ListInv

variable {st st' : Heap} (h : ListInv st)
include h

/-- **The frame of a step**: a state that agrees with an invariant one away from span `s` and
mcache `m` is in the invariant once `s` and `m` are. -/
theorem of_agree {s m : ℕ} (hs : SpanFacts st' s) (hm : McacheOK st' m)
    (ht : ∀ t, t ≠ s → AgreeAt st st' t) (hm' : ∀ m', m' ≠ m → McAgree st st' m')
    (hth : st'.thrown = none) : ListInv st' :=
  ⟨fun t => if hts : t = s then hts ▸ hs else (h.span t).of_agree (ht t hts),
    fun m' => if hmm : m' = m then hmm ▸ hm else (h.mcache m').of_agree (hm' m' hmm), hth⟩

/-- The facts of a span whose record a step replaces by one of the same class, moving it on the
lists of its class only. -/
theorem spanFacts {s : ℕ} {sp sp' : MSpan} (hs : st.spans s = some sp)
    (hs' : st'.spans s = some sp') (hc : sp'.sizeclass = sp.sizeclass)
    (hother : ∀ c, c ≠ sp.sizeclass → st'.places c s = st.places c s) (hp : PlacedAt st' s sp') :
    SpanFacts st' s := by
  refine ⟨fun c hin => ?_, fun sp'' hs'' => by rw [hs'] at hs''; cases hs''; exact hp⟩
  by_cases hcc : c = sp.sizeclass
  · exact ⟨sp', hs', hc.trans hcc.symm⟩
  · have := hother c hcc
    simp only [Heap.places, Prod.mk.injEq] at this
    have hin' : s ∈ st.nonempty c ∨ s ∈ st.empty c := by
      simpa only [← List.count_pos_iff, this.1, this.2] using hin
    obtain ⟨sp₀, hs₀, hc₀⟩ := h.listed hin'
    rw [hs] at hs₀; cases hs₀
    exact absurd hc₀.symm hcc

/-- A step that changes only refill `m`, between phases that hold no span. -/
theorem setRefill {m : ℕ} {r : Refill} (hnone : (st.refill m).span = none)
    (hm : McacheOK (st.setRefill m r) m) : ListInv (st.setRefill m r) := by
  have ha : ∀ t, AgreeAt st (st.setRefill m r) t := fun t =>
    .setRefill r fun _ hs => h.owner_ne_refill hs (by simp [hnone])
  exact ⟨fun t => (h.span t).of_agree (ha t), fun m' => if hmm : m' = m then hmm ▸ hm else
    (h.mcache m').of_agree ⟨by simp [Function.update_noteq hmm], rfl, rfl,
      fun _ _ _ => ⟨rfl, rfl⟩⟩, h.thrown⟩

end ListInv

/-! ### Steps that rewrite one span's record -/

/-- `st'` is `st` with span `s`'s record replaced by one satisfying `P`, and with memory and
live slots changed: what a sweep or a pop does. -/
structure Rewrites (st st' : Heap) (s : ℕ) (P : MSpan → Prop) : Prop where
  spans : ∃ sp', st'.spans = Function.update st.spans s (some sp') ∧ P sp'
  nonempty : st'.nonempty = st.nonempty
  empty : st'.empty = st.empty
  owner : st'.owner = st.owner
  refill : st'.refill = st.refill
  alloc : st'.alloc = st.alloc
  sweepgen : st'.sweepgen = st.sweepgen
  thrown : st'.thrown = st.thrown

namespace Rewrites

variable {st st₁ st₂ : Heap} {s : ℕ} {P Q : MSpan → Prop}

theorem agreeAt (h : Rewrites st st₁ s P) {t : ℕ} (ht : t ≠ s) : AgreeAt st st₁ t := by
  obtain ⟨sp', hsp, -⟩ := h.spans
  exact ⟨by rw [hsp, Function.update_noteq ht], by rw [h.owner],
    fun _ => by simp [Heap.places, h.nonempty, h.empty], h.sweepgen,
    fun _ _ _ _ => by rw [h.refill], fun _ _ _ _ => by rw [h.alloc]⟩

theorem mono (h : Rewrites st st₁ s P) (hPQ : ∀ sp, P sp → Q sp) : Rewrites st st₁ s Q :=
  { h with spans := let ⟨sp', hsp, hp⟩ := h.spans; ⟨sp', hsp, hPQ sp' hp⟩ }

theorem trans (h₁ : Rewrites st st₁ s P)
    (h₂ : ∀ sp₁, st₁.spans s = some sp₁ → P sp₁ → Rewrites st₁ st₂ s Q) : Rewrites st st₂ s Q := by
  obtain ⟨sp₁, hsp₁, hp₁⟩ := h₁.spans
  have h₂' := h₂ sp₁ (by simp [hsp₁]) hp₁
  obtain ⟨sp₂, hsp₂, hq⟩ := h₂'.spans
  exact ⟨⟨sp₂, by rw [hsp₂, hsp₁, Function.update_idem], hq⟩, h₂'.nonempty.trans h₁.nonempty,
    h₂'.empty.trans h₁.empty, h₂'.owner.trans h₁.owner, h₂'.refill.trans h₁.refill,
    h₂'.alloc.trans h₁.alloc, h₂'.sweepgen.trans h₁.sweepgen, h₂'.thrown.trans h₁.thrown⟩

theorem stamp {sp : MSpan} (hs : st.spans s = some sp) (g : UInt32) :
    Rewrites st (st.stamp s g) s (· = { sp with sweepgen := g }) :=
  ⟨⟨_, by simp [hs], rfl⟩, by simp, by simp, by simp, by simp, by simp, by simp, by simp⟩

/-- The splice of `mCentral_FreeSpan` into an uncached span: the record keeps its class, flag
and stamp, and its free list now starts at a slot. -/
theorem freeSpanSplice (hslot : SlotInv st) {sp : MSpan} {objs : List ℕ}
    (hs : st.spans s = some sp) (hic : sp.incache = false) (ho : FreeObjs st s objs) :
    Rewrites st (st.freeSpanSplice s objs ho.ne_nil) s fun sp' =>
      sp'.sizeclass = sp.sizeclass ∧ sp'.incache = false ∧ sp'.sweepgen = sp.sweepgen ∧
        sp'.freelist ≠ 0 := by
  have hhead : objs.head ho.ne_nil ≠ 0 := by
    have hok := hslot.span_ok s sp hs
    have := le_of_mem_slotList (hok.live_subset _ (ho.live _ (List.head_mem ho.ne_nil)))
    have := hok.base_pos
    simp only [MSpan.slots] at *
    omega
  unfold Heap.freeSpanSplice
  simp only [hs, hic, Bool.false_eq_true, if_false]
  exact ⟨⟨_, rfl, rfl, hic, rfl, hhead⟩, rfl, rfl, rfl, rfl, rfl, rfl, rfl⟩

/-- **The sweep of a span `CacheSpan` claimed**, listed and uncached, throws nothing: the
record keeps its class, stays uncached, is stamped `g`, and keeps a free slot if it had one. -/
theorem sweepPreserve (hslot : SlotInv st) (hth : st.thrown = none) {c : ℕ} {sp : MSpan}
    {objs : List ℕ} (g : UInt32) (hs : st.spans s = some sp) (hic : sp.incache = false)
    (hl : s ∈ st.nonempty c ∨ s ∈ st.empty c) (hobjs : objs = [] ∨ FreeObjs st s objs) :
    Rewrites st (GoRuntime.sweepPreserve st c s objs g) s fun sp' =>
      sp'.sizeclass = sp.sizeclass ∧ sp'.incache = false ∧ sp'.sweepgen = g ∧
        (sp.freelist ≠ 0 → sp'.freelist ≠ 0) := by
  cases objs with
  | nil => exact (stamp hs g).mono fun _ h => h ▸ ⟨rfl, hic, rfl, id⟩
  | cons a l =>
      have hf := freeSpanSplice hslot hs hic (hobjs.resolve_left (List.cons_ne_nil a l))
      simp only [GoRuntime.sweepPreserve, hf.thrown, hth, Option.isSome_none, Bool.false_eq_true,
        if_false, List.mem_append, hl, not_true_eq_false]
      exact hf.trans fun sp₁ hs₁ ⟨hc, hi, _, hfl⟩ =>
        (stamp hs₁ g).mono fun _ h => h ▸ ⟨hc, hi, rfl, fun _ => hfl⟩

end Rewrites

/-! ### `mCache_Refill` and the scans of `CacheSpan` -/

namespace ListInv

variable {st : Heap} (h : ListInv st)
include h

theorem refill {m c : ℕ} (hidle : st.refill m = .idle) (hnone : st.alloc m c = none) :
    ListInv (st.setRefill m (.scan c st.sweepgen)) :=
  h.setRefill (by simp [hidle, Refill.span]) <| (h.mcache m).of_refill (r := .scan c st.sweepgen)
    (by simp [hidle])
    (by simp) (by simp) rfl rfl (by simp [Refill.span]) (by simp [Refill.gen])
    (by simpa [Refill.busy] using hnone) fun _ _ _ => ⟨rfl, rfl⟩

/-- `CacheSpan` takes span `s` of class `c` from the central lists for refill `m`, stamping it
`g`, moving it to the back of `c.empty`, and going on to phase `r`. -/
theorem take {m c s : ℕ} {sp : MSpan} {g : UInt32} {r : Refill}
    (hm : st.refill m = .scan c st.sweepgen) (hs : st.spans s = some sp) (hc : sp.sizeclass = c)
    (ho : st.owner s = .central)
    (hr : RefillPlaced st.sweepgen s { sp with sweepgen := g } (0, 1) r)
    (hrs : r.span = some s) (hrb : r.busy = some c)
    (hrg : ∀ g', r.gen = some g' → g' = st.sweepgen) (hrp : ∀ c', r ≠ .popping c') :
    ListInv ((((st.stamp s g).moveToEmpty c s).setOwner s (.refill m)).setRefill m r) := by
  have hl : Listed st s sp := by
    have := h.placed hs; simp only [PlacedAt, ho] at this; exact this.1
  have hnot : ∀ t, ∀ sp', st.spans t = some sp' → st.owner t ≠ .refill m :=
    fun t sp' ht => h.owner_ne_refill ht (by simp [hm, Refill.span])
  have hs' : ((((st.stamp s g).moveToEmpty c s).setOwner s (.refill m)).setRefill m r).spans s =
      some { sp with sweepgen := g } := by simp [hs]
  have hpl : ((st.stamp s g).moveToEmpty c s).places c s = (0, 1) :=
    places_moveToEmpty_self _ _ _ (by simpa [hc] using hl.imp_left And.left)
  have hagree : ∀ t, t ≠ s →
      AgreeAt st ((((st.stamp s g).moveToEmpty c s).setOwner s (.refill m)).setRefill m r) t :=
    fun t ht => (((AgreeAt.stamp g ht).trans (.moveToEmpty ht)).trans (.setOwner _ ht)).trans
      (.setRefill r fun sp' hsp' => by simp [ht] at hsp' ⊢; exact hnot t sp' hsp')
  refine h.of_agree (s := s) (m := m) (h.spanFacts hs hs' rfl (fun c' hc' => ?_) ?_) ?_ hagree
    (fun m' hm' => .of_agreeAt (by simp [Function.update_noteq hm']) (by simp) (by simp)
      (fun _ _ => by simp [ho]) hagree) (by simp [h.thrown])
  · simp [Heap.places, Function.update_noteq (hc ▸ hc')]
  · simpa [PlacedAt, hc, hpl] using hr
  · refine (h.mcache m).of_refill (r := r) (by simp [hm]) hrp (by simp) (by simp) (by simp)
      (fun t ht => ?_) hrg (fun c' hc' => ?_) (fun c' t ht => ?_)
    · rw [hrs] at ht; cases ht; simp [hs]
    · rw [hrb] at hc'; cases hc'; exact (h.mcache m).busy c (by simp [hm, Refill.busy])
    · have hts : t ≠ s := by
        rintro rfl; simp [((h.mcache m).cached c' t ht).1] at ho
      simp [hts]

/-- **The locked scan of `CacheSpan`** keeps the invariant: the span it takes from either list
is one the central lists hold, and one it takes without sweeping is stamped `sg` and has a free
slot. -/
theorem scan {m c : ℕ} {sg : UInt32} (hm : st.refill m = .scan c sg) :
    ListInv (cacheSpanScan st m c sg) := by
  obtain rfl : sg = st.sweepgen := (h.mcache m).gen sg (by simp [hm, Refill.gen])
  have hgrow : ListInv (st.setRefill m (.grow c)) :=
    h.setRefill (by simp [hm, Refill.span]) <| (h.mcache m).of_refill (r := .grow c)
      (by simp [hm]) (by simp) (by simp) rfl rfl (by simp [Refill.span]) (by simp [Refill.gen])
      (fun c' hc' => by
        simp only [Refill.busy, Option.some.injEq] at hc'
        exact hc' ▸ (h.mcache m).busy c (by simp [hm, Refill.busy]))
      fun _ _ _ => ⟨rfl, rfl⟩
  unfold cacheSpanScan
  split
  · rename_i s hf
    obtain ⟨hin, hun⟩ := firstUnclaimed_spec hf
    obtain ⟨sp, hs, hc⟩ := h.listed (.inl hin)
    have hp := h.placed hs
    simp only [hs, Option.map_some', ne_eq, Option.some.injEq] at hun
    have ho := hp.owner_of_nonempty (hc ▸ hin) hun
    obtain ⟨hl, hic, hsg⟩ : Listed st s sp ∧ sp.incache = false ∧
        (sp.sweepgen = st.sweepgen ∨ sp.sweepgen = st.sweepgen - 2) := by
      simpa only [PlacedAt, ho] using hp
    have hfl := hl.freelist_ne_zero (hc ▸ hin)
    split
    · exact h.take hm hs hc ho ⟨rfl, hc.symm, rfl, hic, rfl, hfl⟩ rfl (by simp [Refill.busy])
        (by simp [Refill.gen]) (by simp)
    · rename_i hsw
      simp only [needsSweep, hs, Option.map_some', decide_eq_true_eq, Option.some.injEq] at hsw
      have := h.take (g := sp.sweepgen) (r := .havespan c s) hm hs hc ho
        ⟨rfl, hc.symm, rfl, hic, hsg.resolve_right hsw, hfl⟩ rfl (by simp [Refill.busy])
        (by simp [Refill.gen]) (by simp)
      rwa [Heap.stamp_of_eq _ hs] at this
  · split
    · rename_i s hf
      obtain ⟨hin, -⟩ := firstUnclaimed_spec hf
      obtain ⟨sp, hs, hc⟩ := h.listed (.inr hin)
      split
      · rename_i hsw
        simp only [needsSweep, hs, Option.map_some', decide_eq_true_eq, Option.some.injEq] at hsw
        have ho := (h.placed hs).owner_of_sub_two hsw
        have hic : sp.incache = false := by
          have := h.placed hs; simp only [PlacedAt, ho] at this; exact this.2.1
        exact h.take hm hs hc ho ⟨rfl, hc.symm, rfl, hic, rfl⟩ rfl (by simp [Refill.busy])
          (by simp [Refill.gen]) (by simp)
      · exact hgrow
    · exact hgrow

/-- **The sweep of a span `CacheSpan` claimed**, and where `CacheSpan` goes after it: to
`havespan:` with a span that has a free slot, or, for a span of `c.empty` that is still full,
back to the scan with the span returned to the central lists. -/
theorem sweep (hslot : SlotInv st) {m c s : ℕ} {sg : UInt32} {r : Refill} {objs : List ℕ}
    (hr : st.refill m = r) (hcase : r = .sweepNonempty c s sg ∨ r = .sweepEmpty c s sg)
    (hobjs : objs = [] ∨ FreeObjs st s objs) :
    ListInv (afterSweep (sweepPreserve st c s objs sg) m r) := by
  have hspan : (st.refill m).span = some s := by
    rcases hcase with rfl | rfl <;> simp [hr, Refill.span]
  have hbusy : (st.refill m).busy = some c := by
    rcases hcase with rfl | rfl <;> simp [hr, Refill.busy]
  have hpop : ∀ c', st.refill m ≠ .popping c' := by rcases hcase with rfl | rfl <;> simp [hr]
  obtain ⟨ho, hsome⟩ := (h.mcache m).held s hspan
  obtain ⟨sp, hs⟩ := Option.isSome_iff_exists.mp hsome
  obtain rfl : sg = st.sweepgen :=
    (h.mcache m).gen sg (by rcases hcase with rfl | rfl <;> simp [hr, Refill.gen])
  have hp := h.placed hs
  simp only [PlacedAt, ho, hr] at hp
  obtain ⟨rfl, hpl, hic⟩ : c = sp.sizeclass ∧ st.places sp.sizeclass s = (0, 1) ∧
      sp.incache = false := by
    rcases hcase with rfl | rfl <;> simp only [RefillPlaced] at hp <;>
      exact ⟨hp.2.1, hp.2.2.1, hp.2.2.2.1⟩
  have hl : s ∈ st.nonempty sp.sizeclass ∨ s ∈ st.empty sp.sizeclass := by
    simp only [Heap.places, Prod.mk.injEq] at hpl
    exact .inr (List.count_pos_iff.mp (by omega))
  have hw := Rewrites.sweepPreserve hslot h.thrown st.sweepgen hs hic hl hobjs
  obtain ⟨sp₁, hsp₁, hcls, hic₁, hsg₁, hfl₁⟩ := hw.spans
  set st₁ := sweepPreserve st sp.sizeclass s objs st.sweepgen
  have hs₁ : st₁.spans s = some sp₁ := by simp [hsp₁]
  have hpl₁ : ∀ c', st₁.places c' s = st.places c' s := fun c' => by
    simp [Heap.places, hw.nonempty, hw.empty]
  have hnot : ∀ t, t ≠ s → ∀ sp', st₁.spans t = some sp' → st₁.owner t ≠ .refill m :=
    fun t ht sp' hsp' => by
      rw [hw.owner]
      exact h.owner_ne_refill ((hw.agreeAt ht).spans ▸ hsp') (by simp [hspan, Ne.symm ht])
  have hcached : ∀ c' t, st.alloc m c' = some t → t ≠ s := fun c' t ht hts => by
    have := ((h.mcache m).cached c' t ht).1
    rw [hts, ho] at this; cases this
  have hown₁ : ∀ t, st₁.owner t = st.owner t := fun t => congrFun hw.owner t
  have hm' : ∀ {st' : Heap}, (∀ t, t ≠ s → AgreeAt st st' t) → (∀ m', m' ≠ m →
      st'.refill m' = st.refill m') → st'.alloc = st.alloc → st'.sweepgen = st.sweepgen →
      ∀ m', m' ≠ m → McAgree st st' m' := fun ha hr' hal hg m' hm' =>
    .of_agreeAt (hr' m' hm') (by rw [hal]) hg (fun _ _ => by simp [ho, Ne.symm hm']) ha
  -- `havespan:` with the swept span
  have hhave (hfl : sp₁.freelist ≠ 0) :
      ListInv (st₁.setRefill m (.havespan sp.sizeclass s)) := by
    have ha : ∀ t, t ≠ s → AgreeAt st (st₁.setRefill m (.havespan sp.sizeclass s)) t :=
      fun t ht => (hw.agreeAt ht).trans (.setRefill _ (hnot t ht))
    refine h.of_agree (s := s) (m := m) (h.spanFacts hs (by simp [hs₁]) hcls
      (fun c' _ => by simp [hpl₁]) ?_) ?_ ha
      (hm' ha (fun m' hm' => by simp [Function.update_noteq hm', hw.refill]) (by simp [hw.alloc])
        (by simp [hw.sweepgen])) (by simp [hw.thrown, h.thrown])
    · simpa [PlacedAt, hown₁, ho, RefillPlaced, hcls, hpl₁, hpl, hic₁, hsg₁, hw.sweepgen]
        using hfl
    · refine (h.mcache m).of_refill (r := .havespan sp.sizeclass s) hpop (by simp) (by simp)
        (by simp [hw.alloc]) (by simp [hw.sweepgen]) (fun t ht => ?_) (by simp [Refill.gen])
        (fun c' hc' => ?_) (fun c' t ht => ?_)
      · simp only [Refill.span, Option.some.injEq] at ht
        subst ht; simp [hown₁, ho, hs₁]
      · simp only [Refill.busy, Option.some.injEq] at hc'
        exact hc' ▸ (h.mcache m).busy _ hbusy
      · exact ⟨by simp [hown₁], by simpa using (hw.agreeAt (hcached c' t ht)).spans⟩
  rcases hcase with rfl | rfl
  · exact hhave (hfl₁ (by simpa [RefillPlaced] using hp.2.2.2.2.2))
  · simp only [afterSweep, hs₁, Option.map_some', ne_eq, Option.some.injEq]
    split_ifs with hfl
    swap
    · exact hhave hfl
    · -- still full: back to the central lists, and the scan again
      have ha : ∀ t, t ≠ s →
          AgreeAt st ((st₁.setOwner s .central).setRefill m (.scan sp.sizeclass st.sweepgen)) t :=
        fun t ht => ((hw.agreeAt ht).trans (.setOwner _ ht)).trans
          (.setRefill _ fun sp' hsp' => by simpa [ht] using hnot t ht sp' (by simpa using hsp'))
      refine h.of_agree (s := s) (m := m) (h.spanFacts hs (by simp [hs₁]) hcls
        (fun c' _ => by simp [hpl₁]) ?_) ?_ ha
        (hm' ha (fun m' hm' => by simp [Function.update_noteq hm', hw.refill])
          (by simp [hw.alloc]) (by simp [hw.sweepgen])) (by simp [hw.thrown, h.thrown])
      · simp [PlacedAt, Listed, hcls, hpl₁, hpl, hw.sweepgen, hic₁, hsg₁]
      · refine (h.mcache m).of_refill (r := .scan sp.sizeclass st.sweepgen) hpop (by simp)
          (by simp) (by simp [hw.alloc]) (by simp [hw.sweepgen]) (by simp [Refill.span])
          (by simp [Refill.gen]) (fun c' hc' => ?_) (fun c' t ht => ?_)
        · simp only [Refill.busy, Option.some.injEq] at hc'
          exact hc' ▸ (h.mcache m).busy _ hbusy
        · have hts := hcached c' t ht
          exact ⟨by simp [hown₁, hts], by simpa using (hw.agreeAt hts).spans⟩

/-- **`mCentral_Grow`** hands refill `m` a fresh span `i`, on no list yet. -/
theorem grow {sc : SizeClasses} {m c start i : ℕ} {mem' : ℕ → ℕ} {sp : MSpan}
    (hm : st.refill m = .grow c) (hstart : 0 < start) (hi : st.spans i = none)
    (hgrow : mCentralGrow sc c start st.sweepgen st.mem = .ok (mem', sp)) :
    ListInv ((({ st with mem := mem' }.setSpan i sp).setOwner i (.refill m)).setRefill m
      (.grown c i)) := by
  obtain ⟨hc, hic, hsg, hfl⟩ := mCentralGrow_fields hgrow
  have hfl' : sp.freelist ≠ 0 := by
    rw [hfl, shiftLeft_pageShift]; exact Nat.mul_ne_zero hstart.ne' (by decide)
  have hunl : ∀ c', ¬(i ∈ st.nonempty c' ∨ i ∈ st.empty c') := fun c' hin => by
    obtain ⟨_, hs, -⟩ := h.listed hin; simp [hi] at hs
  set st₁ : Heap := { st with mem := mem' }
  have hagree : ∀ t, t ≠ i → AgreeAt st (((st₁.setSpan i sp).setOwner i (.refill m)).setRefill m
      (.grown c i)) t := fun t ht => by
    have h₁ : AgreeAt st st₁ t := .of_eq rfl rfl rfl rfl rfl rfl rfl
    refine ((h₁.trans (.setSpan sp ht)).trans (.setOwner _ ht)).trans
      (.setRefill _ fun sp' hsp' => ?_)
    simp only [Heap.setOwner_owner, Heap.setOwner_spans, Heap.setSpan_spans,
      Function.update_noteq ht] at hsp' ⊢
    exact h.owner_ne_refill hsp' (by simp [hm, Refill.span])
  refine h.of_agree (s := i) (m := m) ⟨fun c' hin => absurd (by simpa using hin) (hunl c'),
    fun sp' hsp' => ?_⟩ ?_ hagree (fun m' hm' => .of_agreeAt
      (by simp [Function.update_noteq hm']) rfl rfl (by simp [hi]) hagree) (by simp [h.thrown])
  · simp only [Heap.setRefill_spans, Heap.setOwner_spans, Heap.setSpan_spans,
      Function.update_same, Option.some.injEq] at hsp'
    subst hsp'
    have h0 : st.places sp.sizeclass i = (0, 0) := by
      have := hunl sp.sizeclass
      simp only [not_or, ← List.count_eq_zero] at this
      simp [Heap.places, this.1, this.2]
    simpa [PlacedAt, RefillPlaced, hc, hic, hsg, hfl', Heap.places] using h0
  · refine (h.mcache m).of_refill (r := .grown c i) (by simp [hm]) (by simp) (by simp) rfl rfl
      (fun t ht => ?_) (by simp [Refill.gen]) (fun c' hc' => ?_) (fun c' t ht => ?_)
    · simp only [Refill.span, Option.some.injEq] at ht; subst ht; simp
    · simp only [Refill.busy, Option.some.injEq] at hc'
      exact hc' ▸ (h.mcache m).busy c (by simp [hm, Refill.busy])
    · have hti : t ≠ i := by
        rintro rfl; obtain ⟨-, _, hs, -⟩ := (h.mcache m).cached c' t ht; simp [hi] at hs
      exact ⟨by simp [hti], by simp [hti]⟩

/-- **The locked insertion** of a grown span at the back of `c.empty`. -/
theorem insert {m c s : ℕ} (hm : st.refill m = .grown c s) :
    ListInv ({ st with empty := Function.update st.empty c (st.empty c ++ [s]) }.setRefill m
      (.havespan c s)) := by
  obtain ⟨ho, hsome⟩ := (h.mcache m).held s (by simp [hm, Refill.span])
  obtain ⟨sp, hs⟩ := Option.isSome_iff_exists.mp hsome
  have hp := h.placed hs
  simp only [PlacedAt, ho, hm, RefillPlaced] at hp
  obtain ⟨-, rfl, hpl, hic, hsg, hfl⟩ := hp
  set st₁ : Heap :=
    { st with empty := Function.update st.empty sp.sizeclass (st.empty sp.sizeclass ++ [s]) }
  have hplaces : ∀ c' t, t ≠ s ∨ c' ≠ sp.sizeclass → st₁.places c' t = st.places c' t := by
    intro c' t hts
    by_cases hc : c' = sp.sizeclass
    · subst hc
      simp [st₁, Heap.places, List.count_singleton', Ne.symm (hts.resolve_right (not_not.2 rfl))]
    · simp [st₁, Heap.places, Function.update_noteq hc]
  have hagree : ∀ t, t ≠ s → AgreeAt st (st₁.setRefill m (.havespan sp.sizeclass s)) t :=
    fun t ht => by
      have h₁ : AgreeAt st st₁ t := ⟨rfl, rfl, fun c' => hplaces c' t (.inl ht), rfl,
        fun _ _ _ _ => rfl, fun _ _ _ _ => rfl⟩
      exact h₁.trans (.setRefill _ fun sp' hsp' =>
        h.owner_ne_refill hsp' (by simp [hm, Refill.span, Ne.symm ht]))
  refine h.of_agree (s := s) (m := m) (h.spanFacts hs (by simp [hs]) rfl
    (fun c' hc' => hplaces c' s (.inr hc')) ?_) ?_ hagree (fun m' hm' => .of_agreeAt
      (by simp [Function.update_noteq hm']) rfl rfl (fun _ _ => by simp [ho, Ne.symm hm'])
      hagree) (by simp [h.thrown])
  · simp only [Heap.places, Prod.mk.injEq] at hpl
    simp [st₁, PlacedAt, RefillPlaced, ho, hic, hsg, hfl, Heap.places, hpl]
  · refine (h.mcache m).of_refill (r := .havespan sp.sizeclass s) (by simp [hm]) (by simp)
      (by simp) rfl rfl (fun t ht => ?_) (by simp [Refill.gen]) (fun c' hc' => ?_)
      (fun c' t _ => ⟨rfl, rfl⟩)
    · simp only [Refill.span, Option.some.injEq] at ht; subst ht; simp [ho, hs]
    · simp only [Refill.busy, Option.some.injEq] at hc'
      exact hc' ▸ (h.mcache m).busy _ (by simp [hm, Refill.busy])

/-- **`havespan:`** finds a free slot in the span it returns, so neither check throws, and the
span goes to mcache `m`. -/
theorem haveSpan (hslot : SlotInv st) {m c s : ℕ} (hm : st.refill m = .havespan c s) :
    ListInv (GoRuntime.haveSpan st m c s) := by
  obtain ⟨ho, hsome⟩ := (h.mcache m).held s (by simp [hm, Refill.span])
  obtain ⟨sp, hs⟩ := Option.isSome_iff_exists.mp hsome
  have hp := h.placed hs
  simp only [PlacedAt, ho, hm, RefillPlaced] at hp
  obtain ⟨-, rfl, hpl, hic, hsg, hfl⟩ := hp
  have hcap : sp.cap - sp.ref.toNat ≠ 0 := by
    have := ((hslot.span_ok s sp hs).freelist_ne_zero_iff).mp hfl; omega
  have hnone : st.alloc m sp.sizeclass = none := (h.mcache m).busy _ (by simp [hm, Refill.busy])
  simp only [GoRuntime.haveSpan, hs, hcap, hfl, if_false]
  set sp' : MSpan := { sp with incache := true }
  have hagree : ∀ t, t ≠ s → AgreeAt st ((((st.setSpan s sp').setOwner s (.cache m)).setRefill m
      (.popping sp.sizeclass)).setAlloc m sp.sizeclass (some s)) t := fun t ht =>
    (((AgreeAt.setSpan sp' ht).trans (.setOwner _ ht)).trans (.setRefill _ fun tp htp => by
      simp only [Heap.setOwner_owner, Heap.setOwner_spans, Heap.setSpan_spans,
        Function.update_noteq ht] at htp ⊢
      exact h.owner_ne_refill htp (by simp [hm, Refill.span, Ne.symm ht]))).trans
      (.setAlloc _ fun tp htp hto => by
        simp only [Heap.setRefill_owner, Heap.setOwner_owner, Heap.setRefill_spans,
          Heap.setOwner_spans, Heap.setSpan_spans, Function.update_noteq ht] at htp hto
        intro hc
        have := h.alloc_of_cache htp hto
        rw [hc, hnone] at this; cases this)
  have hs' : ((((st.setSpan s sp').setOwner s (.cache m)).setRefill m
      (.popping sp.sizeclass)).setAlloc m sp.sizeclass (some s)).spans s = some sp' := by simp
  refine h.of_agree (s := s) (m := m) (h.spanFacts hs hs' rfl (fun _ _ => by simp) ?_) ?_
    hagree (fun m' hm' => .of_agreeAt (by simp [Function.update_noteq hm'])
      (by simp [Function.update_noteq hm']) rfl (fun _ _ => by simp [ho, Ne.symm hm']) hagree)
    (by simp [h.thrown])
  · simp [PlacedAt, hpl, hsg, sp']
  · refine ⟨by simp [Refill.span], by simp [Refill.gen], by simp [Refill.busy],
      fun c' t ht => ?_, fun c' hc' => ?_⟩
    · by_cases hc : c' = sp.sizeclass
      · subst hc
        simp only [Heap.setAlloc_alloc, Function.update_same, Option.some.injEq] at ht
        subst ht
        simp [sp']
      · simp only [Heap.setAlloc_alloc, Function.update_same, Function.update_noteq hc] at ht
        obtain ⟨hto, tp, htp, htc, href⟩ := (h.mcache m).cached c' t ht
        have hts : t ≠ s := by rintro rfl; rw [ho] at hto; cases hto
        refine ⟨by simp [hts, hto], tp, by simp [hts, htp], htc, fun _ => href ?_⟩
        simp [hm]
    · simp only [Heap.setAlloc_refill, Heap.setRefill_refill, Function.update_same,
        Refill.popping.injEq] at hc'
      subst hc'
      exact ⟨s, sp', by simp, by simp, hfl⟩

/-- **The pop of `mallocgc`** from its cached span of class `c`; the pop that follows a refill
makes `s.ref` non-zero. -/
theorem pop (hslot : SlotInv st) {m c s : ℕ} {sp : MSpan}
    (hr : st.refill m = .idle ∨ st.refill m = .popping c) (ha : st.alloc m c = some s)
    (hs : st.spans s = some sp) (hne : sp.freelist ≠ 0) :
    ListInv ((popSlot st s).setRefill m .idle) := by
  obtain ⟨ho, sp₀, hs₀, hc, -⟩ := (h.mcache m).cached c s ha
  rw [hs] at hs₀; cases hs₀
  have href := ((hslot.span_ok s sp hs).pop hne).2.2.1
  set sp' := (sp.pop st.mem).2
  have hpop : popSlot st s = (st.setSpan s sp').setLive s (sp.freelist :: st.live s) := by
    simp [popSlot, hs, sp']
  rw [hpop]
  have hnone : (st.refill m).span = none := by rcases hr with hr | hr <;> simp [hr, Refill.span]
  have hagree : ∀ t, t ≠ s →
      AgreeAt st (((st.setSpan s sp').setLive s (sp.freelist :: st.live s)).setRefill m .idle) t :=
    fun t ht => (((AgreeAt.setSpan sp' ht).trans (.setLive _ _)).trans
      (.setRefill _ fun tp htp => by
        simp only [Heap.setLive_spans, Heap.setSpan_spans, Function.update_noteq ht] at htp
        exact h.owner_ne_refill htp (by simp [hnone])))
  have hs' : (((st.setSpan s sp').setLive s (sp.freelist :: st.live s)).setRefill m .idle).spans s =
      some sp' := by simp
  refine h.of_agree (s := s) (m := m) (h.spanFacts hs hs' rfl (fun _ _ => by simp) ?_) ?_
    hagree (fun m' hm' => .of_agreeAt (by simp [Function.update_noteq hm']) rfl rfl
      (fun _ _ => by simp [ho, Ne.symm hm']) hagree) (by simp [h.thrown])
  · simpa [PlacedAt, ho, sp', MSpan.pop] using h.placed hs
  · refine ⟨by simp [Refill.span], by simp [Refill.gen], by simp [Refill.busy],
      fun c' t ht => ?_, by simp⟩
    simp only [Heap.setRefill_alloc, Heap.setLive_alloc, Heap.setSpan_alloc] at ht
    obtain ⟨hto, tp, htp, htc, hre⟩ := (h.mcache m).cached c' t ht
    by_cases hts : t = s
    · subst hts
      rw [hs] at htp; cases htp
      exact ⟨by simp [hto], sp', by simp, htc, fun _ => by simp [sp', MSpan.pop, href]⟩
    · refine ⟨by simp [hto], tp, by simp [hts, htp], htc, fun _ => hre ?_⟩
      rcases hr with hr | hr
      · simp [hr]
      · rw [hr]; intro hcc; cases hcc; exact hts (Option.some.inj (ht.symm.trans ha))

/-- **`mCentral_UncacheSpan`**: a span returned after a pop has objects handed out, so it does
not throw, and goes back to the central lists, on `c.nonempty` if it has a free slot. -/
theorem uncache (hslot : SlotInv st) {m c s : ℕ} (hr : st.refill m = .idle)
    (ha : st.alloc m c = some s) : ListInv (uncacheSpan st m c s) := by
  obtain ⟨ho, sp, hs, rfl, href⟩ := (h.mcache m).cached c s ha
  have href := href (by simp [hr])
  have hp := h.placed hs
  simp only [PlacedAt, ho] at hp
  obtain ⟨hpl, -, hsg, -⟩ := hp
  set sp' : MSpan := { sp with incache := false }
  set st₁ := ((st.setSpan s sp').setOwner s .central).setAlloc m sp.sizeclass none
  have hagree₁ : ∀ t, t ≠ s → AgreeAt st st₁ t := fun t ht =>
    ((AgreeAt.setSpan sp' ht).trans (.setOwner _ ht)).trans (.setAlloc _ fun tp htp hto => by
      simp only [Heap.setOwner_owner, Heap.setOwner_spans, Heap.setSpan_spans,
        Function.update_noteq ht] at htp hto
      intro hc
      have := h.alloc_of_cache htp hto
      rw [hc, ha] at this; exact ht (Option.some.inj this).symm)
  have hcached : ∀ c' t, c' ≠ sp.sizeclass → st.alloc m c' = some t → t ≠ s := by
    intro c' t hc' ht hts
    obtain ⟨-, tp, htp, htc, -⟩ := (h.mcache m).cached c' t ht
    rw [hts, hs] at htp; cases htp; exact hc' htc.symm
  have hmc : ∀ {st' : Heap}, st'.refill = st.refill → st'.alloc = st₁.alloc →
      (∀ c' t, st.alloc m c' = some t → c' ≠ sp.sizeclass →
        st'.owner t = st.owner t ∧ st'.spans t = st.spans t) → McacheOK st' m :=
    fun hr' ha' hts => ⟨by simp [hr', hr, Refill.span], by simp [hr', hr, Refill.gen],
      by simp [hr', hr, Refill.busy], fun c' t ht => by
        rw [ha'] at ht
        by_cases hc' : c' = sp.sizeclass
        · subst hc'; simp [st₁] at ht
        · simp only [st₁, Heap.setAlloc_alloc, Function.update_same, Function.update_noteq hc',
            Heap.setOwner_alloc, Heap.setSpan_alloc] at ht
          obtain ⟨hto, tp, htp, htc, hre⟩ := (h.mcache m).cached c' t ht
          obtain ⟨ho', hs'⟩ := hts c' t ht hc'
          exact ⟨ho'.trans hto, tp, hs'.trans htp, htc, fun _ => hre (by simp [hr])⟩,
      fun c' hc' => by simp [hr', hr] at hc'⟩
  have hmc' : ∀ {st' : Heap}, (∀ t, t ≠ s → AgreeAt st st' t) → st'.refill = st.refill →
      (∀ m', m' ≠ m → st'.alloc m' = st.alloc m') → st'.sweepgen = st.sweepgen →
      ∀ m', m' ≠ m → McAgree st st' m' := fun hag hr' ha' hg m' hm' =>
    .of_agreeAt (by rw [hr']) (ha' m' hm') hg (fun _ _ => by simp [ho, Ne.symm hm']) hag
  have hth : st₁.thrown = none := by simp [st₁, h.thrown]
  have hu : uncacheSpan st m sp.sizeclass s =
      if 0 < sp.cap - sp.ref.toNat then st₁.moveToNonempty sp.sizeclass s else st₁ := by
    simp [uncacheSpan, hs, href, st₁, sp']
  rw [hu]
  split_ifs with hfree
  · -- moved to `c.nonempty`
    have hfl : sp.freelist ≠ 0 := ((hslot.span_ok s sp hs).freelist_ne_zero_iff).mpr (by omega)
    have hagree : ∀ t, t ≠ s → AgreeAt st (st₁.moveToNonempty sp.sizeclass s) t :=
      fun t ht => (hagree₁ t ht).trans (.moveToNonempty ht)
    have hs' : (st₁.moveToNonempty sp.sizeclass s).spans s = some sp' := by simp [st₁]
    refine h.of_agree (s := s) (m := m) (h.spanFacts hs hs' rfl
      (fun c' hc' => by simp [st₁, Heap.places, Function.update_noteq hc']) ?_)
      (hmc rfl rfl fun c' t ht hc' => (hagree t (hcached c' t hc' ht)).owner.symm ▸
        ⟨rfl, (hagree t (hcached c' t hc' ht)).spans⟩) hagree
      (hmc' hagree rfl (fun m' hm' => by simp [st₁, Function.update_noteq hm']) (by simp [st₁]))
      (by simp [hth])
    have h10 : (st₁.moveToNonempty sp.sizeclass s).places sp.sizeclass s = (1, 0) :=
      places_moveToNonempty_self _ _ _ (.inr (by simpa [st₁] using hpl))
    have ho₁ : st₁.owner s = .central := by simp [st₁]
    simp only [PlacedAt, Heap.moveToNonempty_owner, ho₁, Listed, h10]
    simp [st₁, sp', hfl, hsg]
  · -- still full: it stays on `c.empty`
    have hs' : st₁.spans s = some sp' := by simp [st₁]
    refine h.of_agree (s := s) (m := m) (h.spanFacts hs hs' rfl (fun c' hc' => by simp [st₁]) ?_)
      (hmc rfl rfl fun c' t ht hc' => (hagree₁ t (hcached c' t hc' ht)).owner.symm ▸
        ⟨rfl, (hagree₁ t (hcached c' t hc' ht)).spans⟩) hagree₁
      (hmc' hagree₁ rfl (fun m' hm' => by simp [st₁, Function.update_noteq hm']) (by simp [st₁]))
      hth
    simp [PlacedAt, Listed, st₁, sp', hpl, hsg]

/-- A write of the mutator touches no list, holder or record. -/
theorem write (a v : ℕ) : ListInv { st with mem := Function.update st.mem a v } :=
  ⟨h.span, fun m => (h.mcache m).of_agree ⟨rfl, rfl, rfl, fun _ _ _ => ⟨rfl, rfl⟩⟩, h.thrown⟩

/-- A step of the background sweeper on span `s`, which no mcache holds: refills and `alloc`
arrays are kept, and other spans agree. -/
theorem of_bg {st' : Heap} {s : ℕ} (hs : SpanFacts st' s)
    (hown : ∀ sp, st.spans s = some sp → ∀ m, st.owner s ≠ .refill m ∧ st.owner s ≠ .cache m)
    (ht : ∀ t, t ≠ s → AgreeAt st st' t) (hr : st'.refill = st.refill)
    (ha : st'.alloc = st.alloc) (hg : st'.sweepgen = st.sweepgen) (hth : st'.thrown = none) :
    ListInv st' :=
  have hmc : ∀ m, McAgree st st' m := fun m =>
    .of_agreeAt (by rw [hr]) (by rw [ha]) hg (fun sp hsp => hown sp hsp m) ht
  h.of_agree (s := s) (m := 0) hs ((h.mcache 0).of_agree (hmc 0)) ht (fun m' _ => hmc m') hth

/-- **The background sweeper's claim** `cas(&s.sweepgen, sg-2, sg-1)` takes a span of the
central lists. -/
theorem bgClaim {s : ℕ} {sp : MSpan} (hs : st.spans s = some sp)
    (hsg : sp.sweepgen = st.sweepgen - 2) :
    ListInv ((st.stamp s (st.sweepgen - 1)).setOwner s .sweeping) := by
  have ho := (h.placed hs).owner_of_sub_two hsg
  have hp := h.placed hs
  simp only [PlacedAt, ho] at hp
  obtain ⟨hl, hic, -⟩ := hp
  have hs' : ((st.stamp s (st.sweepgen - 1)).setOwner s .sweeping).spans s =
      some { sp with sweepgen := st.sweepgen - 1 } := by simp [hs]
  exact h.of_bg (h.spanFacts hs hs' rfl (fun _ _ => by simp)
    (by simpa [PlacedAt, Listed, hic] using hl)) (fun _ _ m => by simp [ho])
    (fun t ht => (AgreeAt.stamp _ ht).trans (.setOwner _ ht)) (by simp) (by simp) (by simp)
    (by simp [h.thrown])

/-- The background sweep of a claimed span frees nothing and returns it to the central
lists. -/
theorem bgNoFree {s : ℕ} (ho : st.owner s = .sweeping) :
    ListInv ((st.stamp s st.sweepgen).setOwner s .central) := by
  refine h.of_bg ?_ (fun _ _ m => by simp [ho])
    (fun t ht => (AgreeAt.stamp _ ht).trans (.setOwner _ ht)) (by simp) (by simp) (by simp)
    (by simp [h.thrown])
  cases hs : st.spans s with
  | none =>
      refine ⟨fun c hin => ?_, fun sp hsp => by simp [hs] at hsp⟩
      obtain ⟨_, hs', -⟩ := h.listed (by simpa using hin)
      simp [hs] at hs'
  | some sp =>
      have hp := h.placed hs
      simp only [PlacedAt, ho] at hp
      obtain ⟨hl, hic, -⟩ := hp
      have hs' : ((st.stamp s st.sweepgen).setOwner s .central).spans s =
          some { sp with sweepgen := st.sweepgen } := by simp [hs]
      exact h.spanFacts hs hs' rfl (fun _ _ => by simp)
        (by simpa [PlacedAt, Listed, hic] using hl)

/-- **The unlocked half of the background `mCentral_FreeSpan`**: the splice into a claimed,
uncached span leaves it with a free slot. -/
theorem bgSplice (hslot : SlotInv st) {s : ℕ} {sp : MSpan} {objs : List ℕ}
    (ho : st.owner s = .sweeping) (hs : st.spans s = some sp) (hobjs : FreeObjs st s objs) :
    ListInv ((st.freeSpanSplice s objs hobjs.ne_nil).setOwner s (.freeing (sp.freelist = 0))) := by
  have hp := h.placed hs
  simp only [PlacedAt, ho] at hp
  obtain ⟨hl, hic, hsg⟩ := hp
  have hw := Rewrites.freeSpanSplice hslot hs hic hobjs
  obtain ⟨sp₁, hsp₁, hcls, hic₁, hsg₁, hfl₁⟩ := hw.spans
  have hpl : ∀ c, ((st.freeSpanSplice s objs hobjs.ne_nil).setOwner s
      (.freeing (sp.freelist = 0))).places c s = st.places c s := fun c => by
    simp [Heap.places, hw.nonempty, hw.empty]
  have hs' : ((st.freeSpanSplice s objs hobjs.ne_nil).setOwner s
      (.freeing (sp.freelist = 0))).spans s = some sp₁ := by simp [hsp₁]
  refine h.of_bg (h.spanFacts hs hs' hcls (fun c _ => hpl c) ?_) (fun _ _ m => by simp [ho])
    (fun t ht => (hw.agreeAt ht).trans (.setOwner _ ht)) (by simp [hw.refill])
    (by simp [hw.alloc]) (by simp [hw.sweepgen]) (by simp [hw.thrown, h.thrown])
  simp only [PlacedAt, Heap.setOwner_owner, Function.update_same, Listed, hcls, hpl,
    Heap.setOwner_sweepgen, hw.sweepgen, hic₁, hsg₁, hsg]
  exact ⟨hl.imp_left fun h' => ⟨h'.1, hfl₁⟩, trivial, trivial, hfl₁⟩

/-- **The locked half of the background `mCentral_FreeSpan`**: the span goes to `c.nonempty`
if it was full, back to the central lists, and off both lists if nothing of it is handed out. -/
theorem bgLocked {s : ℕ} {sp : MSpan} {w : Bool} (ho : st.owner s = .freeing w)
    (hs : st.spans s = some sp) : ListInv (freeSpanLocked st sp.sizeclass s w) := by
  have hp := h.placed hs
  simp only [PlacedAt, ho] at hp
  obtain ⟨hl, hic, hsg, hfl⟩ := hp
  set st₁ := if w then st.moveToNonempty sp.sizeclass s else st with hst₁
  have hf₁ : st₁.spans = st.spans ∧ st₁.owner = st.owner ∧ st₁.sweepgen = st.sweepgen ∧
      st₁.refill = st.refill ∧ st₁.alloc = st.alloc ∧ st₁.thrown = st.thrown := by
    cases w <;> simp [st₁]
  obtain ⟨hsp₁, ho₁, hg₁, hr₁, ha₁, hth₁⟩ := hf₁
  have hl₁ : st₁.places sp.sizeclass s = (1, 0) ∨ st₁.places sp.sizeclass s = (0, 1) := by
    cases w
    · simpa [st₁] using hl.imp_left And.left
    · exact .inl (places_moveToNonempty_self _ _ _ (hl.imp_left And.left))
  have hoth : ∀ c, c ≠ sp.sizeclass → st₁.places c s = st.places c s := fun c hc => by
    cases w
    · rfl
    · simp [st₁, Heap.places, Function.update_noteq hc]
  have hag₁ : ∀ t, t ≠ s → AgreeAt st st₁ t := fun t ht => by
    cases w
    · exact .refl _ _
    · exact .moveToNonempty ht
  set st₂ := (st₁.stamp s st₁.sweepgen).setOwner s .central with hst₂
  have hs₂ : st₂.spans s = some { sp with sweepgen := st.sweepgen } := by simp [st₂, hsp₁, hs, hg₁]
  have hag₂ : ∀ t, t ≠ s → AgreeAt st st₂ t := fun t ht =>
    ((hag₁ t ht).trans (.stamp _ ht)).trans (.setOwner _ ht)
  have hbg : ∀ sp, st.spans s = some sp → ∀ m, st.owner s ≠ .refill m ∧ st.owner s ≠ .cache m :=
    fun _ _ m => by simp [ho]
  unfold freeSpanLocked
  simp only [← hst₁, ← hst₂, hs₂]
  split_ifs with href
  · -- objects of the span are still handed out
    refine h.of_bg (h.spanFacts hs hs₂ rfl (fun c hc => by simp [st₂, hoth c hc]) ?_) hbg hag₂
      (by simp [st₂, hr₁]) (by simp [st₂, ha₁]) (by simp [st₂, hg₁]) (by simp [st₂, hth₁, h.thrown])
    have hpl₂ : st₂.places sp.sizeclass s = st₁.places sp.sizeclass s := by simp [st₂]
    simp only [PlacedAt, st₂, Heap.setOwner_owner, Function.update_same]
    rcases hl₁ with h10 | h01
    · simp [Listed, hpl₂, h10, hfl, hic, hg₁]
    · simp [Listed, hpl₂, h01, hic, hg₁]
  · -- the span is empty: off the lists and back to the heap
    have hag₃ : ∀ t, t ≠ s → AgreeAt st
        { st₂.remove sp.sizeclass s with spans := Function.update st₂.spans s none } t :=
      fun t ht => ((hag₂ t ht).trans (.remove ht)).trans
        ⟨by simp [Function.update_noteq ht], rfl, fun _ => rfl, rfl, fun _ _ _ _ => rfl,
          fun _ _ _ _ => rfl⟩
    refine h.of_bg ⟨fun c hin => ?_, fun _ hsp => by simp at hsp⟩ hbg hag₃
      (by simp [st₂, hr₁]) (by simp [st₂, ha₁]) (by simp [st₂, hg₁])
      (by simp [st₂, hth₁, h.thrown])
    by_cases hc : c = sp.sizeclass
    · subst hc
      have h00 : (st₂.remove sp.sizeclass s).places sp.sizeclass s = (0, 0) :=
        places_remove_self _ _ _ (by simpa [st₂] using hl₁)
      simp only [Heap.places, Prod.mk.injEq, List.count_eq_zero] at h00
      exact absurd hin (by simpa using h00)
    · have := hoth c hc
      simp only [Heap.places, Prod.mk.injEq] at this
      have hin' : s ∈ st.nonempty c ∨ s ∈ st.empty c := by
        simpa [st₂, Function.update_noteq hc, ← List.count_pos_iff, this.1, this.2] using hin
      obtain ⟨sp₀, hs₀, hc₀⟩ := h.listed hin'
      rw [hs] at hs₀; cases hs₀
      exact absurd hc₀.symm hc

/-- **A new cycle**: with every mcache flushed and every span swept and back with the central
lists, each span is stamped `sg-2` of the new generation. -/
theorem newGen (hidle : ∀ m, st.refill m = .idle) (hflush : ∀ m c, st.alloc m c = none)
    (hown : ∀ s, st.owner s = .central)
    (hswept : ∀ s sp, st.spans s = some sp → sp.sweepgen = st.sweepgen) :
    ListInv { st with sweepgen := st.sweepgen + 2 } := by
  refine ⟨fun t => ⟨fun c hin => h.listed hin, fun sp hs => ?_⟩, fun m => ?_, h.thrown⟩
  · have hp := h.placed hs
    simp only [PlacedAt, hown] at hp ⊢
    exact ⟨hp.1, hp.2.1, .inr (by rw [hswept t sp hs, add_sub_cancel_right])⟩
  · exact ⟨by simp [hidle, Refill.span], by simp [hidle, Refill.gen], by simp [hidle, Refill.busy],
      by simp [hflush], by simp [hidle]⟩

end ListInv

/-! ### Every run keeps the discipline -/

/-- **Every step keeps the list invariant.** -/
theorem listInv_step (sc : SizeClasses) {st st' : Heap} (hslot : SlotInv st) (h : ListInv st)
    (hs : Step sc st st') : ListInv st' := by
  cases hs with
  | refill m c _ _ hidle hnone => exact h.refill hidle hnone
  | scan m c sg hr => exact h.scan hr
  | sweep m r c s sg objs hr hcase hobjs => exact h.sweep hslot hr hcase hobjs
  | grow m c start i mem' sp hr hstart hi _ hgrow => exact h.grow hr hstart hi hgrow
  | insert m c s hr => exact h.insert hr
  | haveSpan m c s hr => exact h.haveSpan hslot hr
  | pop m c s sp hr ha hs hne => exact h.pop hslot hr ha hs hne
  | uncache m c s hr ha => exact h.uncache hslot hr ha
  | write s sp o a v => exact h.write a v
  | bgClaim s sp hs hsg => exact h.bgClaim hs hsg
  | bgNoFree s ho => exact h.bgNoFree ho
  | bgSplice s sp objs ho hs hobjs => exact h.bgSplice hslot ho hs hobjs
  | bgLocked s sp w ho hs => exact h.bgLocked ho hs
  | newGen hidle hflush hown hswept => exact h.newGen hidle hflush hown hswept

/-- Every reachable heap satisfies the list invariant. -/
theorem listInv_reachable (sc : SizeClasses) {st : Heap} (h : Reachable sc st) : ListInv st := by
  induction h with
  | init mem sg => exact listInv_init mem sg
  | step hr hs ih => exact listInv_step sc (slotInv_reachable sc hr).2 ih hs

namespace PlacedAt

variable {st : Heap} {t : ℕ} {sp : MSpan}

/-- A span not just grown is on exactly one list of its class, once. -/
theorem places_sum (hp : PlacedAt st t sp) (hg : ∀ m, st.refill m ≠ .grown sp.sizeclass t) :
    (st.places sp.sizeclass t).1 + (st.places sp.sizeclass t).2 = 1 := by
  unfold PlacedAt Listed at hp
  split at hp
  · rcases hp.1 with ⟨h, -⟩ | h <;> simp [h]
  · rcases hp.1 with ⟨h, -⟩ | h <;> simp [h]
  · rcases hp.1 with ⟨h, -⟩ | h <;> simp [h]
  · simp [hp.1]
  · rename_i m _
    cases hr : st.refill m <;> simp only [hr, RefillPlaced] at hp
    · simp [hp.2.2.1]
    · simp [hp.2.2.1]
    · obtain ⟨rfl, rfl, -⟩ := hp; exact absurd hr (hg m)
    · simp [hp.2.2.1]

/-- A span on `c.nonempty` is uncached and has a free slot. -/
theorem of_nonempty (hp : PlacedAt st t sp) (hin : t ∈ st.nonempty sp.sizeclass) :
    sp.incache = false ∧ sp.freelist ≠ 0 := by
  have h0 : (st.places sp.sizeclass t).1 ≠ 0 := by
    simpa [Heap.places, List.count_eq_zero] using hin
  unfold PlacedAt at hp
  split at hp
  · exact ⟨hp.2.1, hp.1.freelist_ne_zero hin⟩
  · exact ⟨hp.2.1, hp.1.freelist_ne_zero hin⟩
  · exact ⟨hp.2.1, hp.2.2.2⟩
  · simp [hp.1] at h0
  · rename_i m _
    cases hr : st.refill m <;> simp only [hr, RefillPlaced] at hp <;> simp [hp.2.2.1] at h0

/-- A cached span is held by an mcache: on `c.empty` only, and its `alloc` entry. -/
theorem of_incache (hp : PlacedAt st t sp) (hic : sp.incache = true) :
    ∃ m, st.owner t = .cache m ∧ st.places sp.sizeclass t = (0, 1) ∧
      st.alloc m sp.sizeclass = some t := by
  unfold PlacedAt at hp
  split at hp
  · simp [hic] at hp
  · simp [hic] at hp
  · simp [hic] at hp
  · exact ⟨_, ‹_›, hp.1, hp.2.2.2⟩
  · rename_i m _
    cases hr : st.refill m <;> simp only [hr, RefillPlaced] at hp <;> simp [hic] at hp

end PlacedAt

/-- At `havespan:` the span has a free slot, so `havespan:` installs it. -/
theorem ListInv.havespan_ok {st : Heap} (h : ListInv st) (hslot : SlotInv st) {m c s : ℕ}
    (hm : st.refill m = .havespan c s) :
    ∃ sp, st.spans s = some sp ∧ sp.cap - sp.ref.toNat ≠ 0 ∧ sp.freelist ≠ 0 := by
  obtain ⟨ho, hsome⟩ := (h.mcache m).held s (by simp [hm, Refill.span])
  obtain ⟨sp, hs⟩ := Option.isSome_iff_exists.mp hsome
  have hp := h.placed hs
  simp only [PlacedAt, ho, hm, RefillPlaced] at hp
  have := ((hslot.span_ok s sp hs).freelist_ne_zero_iff).mp hp.2.2.2.2.2
  exact ⟨sp, hs, by omega, hp.2.2.2.2.2⟩

/-- **Central list discipline** of a heap. -/
structure ListDiscipline (st : Heap) : Prop where
  /-- Every span of the heap is on exactly one list of its class, once, unless `mCentral_Grow`
  has just returned it to a refill that has not inserted it yet. -/
  on_one_list : ∀ s sp, st.spans s = some sp → (∀ m, st.refill m ≠ .grown sp.sizeclass s) →
    (st.nonempty sp.sizeclass).count s + (st.empty sp.sizeclass).count s = 1
  /-- Only spans of the heap of class `c` are on the lists of `c`. -/
  listed_class : ∀ c s, s ∈ st.nonempty c ∨ s ∈ st.empty c →
    ∃ sp, st.spans s = some sp ∧ sp.sizeclass = c
  /-- A span returned to the heap is on neither list. -/
  freed_unlisted : ∀ c s, st.spans s = none → s ∉ st.nonempty c ∧ s ∉ st.empty c
  /-- Every span on `c.nonempty` is uncached and has a free slot. -/
  nonempty_free : ∀ c s sp, s ∈ st.nonempty c → st.spans s = some sp →
    sp.incache = false ∧ sp.freelist ≠ 0
  /-- A cached span stays on `c.empty` and is the `alloc` entry of an mcache. -/
  cached_empty : ∀ s sp, st.spans s = some sp → sp.incache = true →
    s ∈ st.empty sp.sizeclass ∧ s ∉ st.nonempty sp.sizeclass ∧
      ∃ m, st.alloc m sp.sizeclass = some s
  /-- No span is held by two mcaches, or for two classes. -/
  one_cache : ∀ m m' c c' s, st.alloc m c = some s → st.alloc m' c' = some s → m = m' ∧ c = c'
  /-- No call of `CacheSpan` is about to return a span that an mcache holds. -/
  not_returned : ∀ m c s m' c', st.alloc m c = some s → st.refill m' ≠ .havespan c' s
  /-- At `havespan:` the span has a free slot, so neither `"empty span"` nor
  `"freelist empty"` is thrown. -/
  havespan_ok : ∀ m c s, st.refill m = .havespan c s →
    ∃ sp, st.spans s = some sp ∧ sp.cap - sp.ref.toNat ≠ 0 ∧ sp.freelist ≠ 0
  /-- No `throw` of the source is reached. -/
  no_throw : st.thrown = none

/-- **Every reachable heap keeps the central list discipline.** -/
theorem list_discipline (sc : SizeClasses) {st : Heap} (hr : Reachable sc st) :
    ListDiscipline st := by
  have h := listInv_reachable sc hr
  have hslot := (slotInv_reachable sc hr).2
  refine ⟨fun s sp hs hg => ?_, fun c s hin => h.listed hin, fun c s hs => ?_,
    fun c s sp hin hs => ?_, fun s sp hs hic => ?_, fun m m' c c' s ha ha' => ?_,
    fun m c s m' c' ha hm => ?_, fun m c s hm => ?_, h.thrown⟩
  · simpa [Heap.places] using (h.placed hs).places_sum hg
  · have hnot : ¬(s ∈ st.nonempty c ∨ s ∈ st.empty c) := fun hin => by
      obtain ⟨_, hs', -⟩ := h.listed hin; simp [hs] at hs'
    exact not_or.mp hnot
  · obtain ⟨sp₀, hs₀, rfl⟩ := h.listed (.inl hin)
    rw [hs] at hs₀; cases hs₀
    exact (h.placed hs).of_nonempty hin
  · obtain ⟨m, -, hpl, ha⟩ := (h.placed hs).of_incache hic
    simp only [Heap.places, Prod.mk.injEq, List.count_eq_zero] at hpl
    exact ⟨List.count_pos_iff.mp (by omega), hpl.1, m, ha⟩
  · obtain ⟨ho, sp, hs, rfl, -⟩ := (h.mcache m).cached c s ha
    obtain ⟨ho', sp', hs', rfl, -⟩ := (h.mcache m').cached c' s ha'
    rw [ho] at ho'; cases ho'
    rw [hs] at hs'; cases hs'
    exact ⟨rfl, rfl⟩
  · have ho := ((h.mcache m).cached c s ha).1
    rw [((h.mcache m').held s (by simp [hm, Refill.span])).1] at ho
    cases ho
  · exact h.havespan_ok hslot hm

/-- Three mcaches refill class `43` (two 4096-byte slots a page), with a new cycle between the
first and the others in which the background sweeper frees the first span's one object and with
it the span: span `0` is back in the heap, span `1` is cached by mcache `1` on `c.empty`, and
span `2`, handed back with one slot free, is on `c.nonempty`. -/
theorem list_discipline_reached :
    ∃ st, Reachable goSizeClasses st ∧ st.spans 0 = none ∧ st.nonempty 43 = [2] ∧
      st.empty 43 = [1] ∧ st.alloc 1 43 = some 1 ∧ ListDiscipline st := by
  -- mcache `0` takes a grown span of class `43`, pops a slot and hands the span back
  have h₁ := Reachable.step (Reachable.step (Reachable.step (Reachable.step (Reachable.step
    (Reachable.step (Reachable.step (@Reachable.init goSizeClasses (fun _ => 0) 2)
      (.refill _ 0 43 (by decide) (by decide) rfl rfl))
      (.scan _ 0 43 2 rfl))
      (.grow _ 0 43 1 0 _ _ rfl (by decide) rfl (fun _ _ h => by cases h) rfl))
      (.insert _ 0 43 0 rfl))
      (.haveSpan _ 0 43 0 rfl))
      (.pop _ 0 43 0 _ (.inr rfl) rfl rfl (by decide)))
      (.uncache _ 0 43 0 rfl rfl)
  -- a new cycle; the background sweeper frees the slot, and with it the span
  have h₂ := Reachable.step (Reachable.step (Reachable.step (Reachable.step h₁
    (.newGen _ (fun m => by rcases m with _ | m <;> rfl)
      (fun m c => by
        rcases m with _ | m
        · by_cases hc : c = 43
          · subst hc; rfl
          · show Function.update (_ : ℕ → Option ℕ) 43 none c = none
            rw [Function.update_noteq hc]
            show Function.update (_ : ℕ → Option ℕ) 43 (some 0) c = none
            rw [Function.update_noteq hc]; rfl
        · rfl)
      (fun s => by rcases s with _ | s <;> rfl)
      (fun s sp h => by rcases s with _ | s <;> cases h; rfl)))
    (.bgClaim _ 0 _ rfl (by decide)))
    (.bgSplice _ 0 _ [8192] rfl rfl ⟨by simp, by simp, by decide, trivial⟩))
    (.bgLocked _ 0 _ _ rfl rfl)
  -- mcache `1` caches a second span, and mcache `2` a third, which it hands back
  have h₃ := Reachable.step (Reachable.step (Reachable.step (Reachable.step (Reachable.step
    (Reachable.step (Reachable.step (Reachable.step (Reachable.step (Reachable.step
    (Reachable.step (Reachable.step h₂
      (.refill _ 1 43 (by decide) (by decide) rfl rfl))
      (.scan _ 1 43 4 rfl))
      (.grow _ 1 43 2 1 _ _ rfl (by decide) rfl
        (fun t _ h => by rcases t with _ | t <;> cases h) rfl))
      (.insert _ 1 43 1 rfl))
      (.haveSpan _ 1 43 1 rfl))
      (.refill _ 2 43 (by decide) (by decide) rfl rfl))
      (.scan _ 2 43 4 rfl))
      (.grow _ 2 43 3 2 _ _ rfl (by decide) rfl
        (fun t _ h => by rcases t with _ | _ | t <;> cases h; exact .inr (by decide)) rfl))
      (.insert _ 2 43 2 rfl))
      (.haveSpan _ 2 43 2 rfl))
      (.pop _ 2 43 2 _ (.inr rfl) rfl rfl (by decide)))
      (.uncache _ 2 43 2 rfl rfl)
  exact ⟨_, h₃, rfl, rfl, rfl, rfl, list_discipline _ h₃⟩

end GoRuntime
