/-
**The central free lists as a machine.**

`mcentral.go` is run concurrently by every mcache that refills a class, by the background
sweeper, and by `mallocgc` popping slots from cached spans.  Its locks protect the span lists
only; a span's free list is edited by whoever holds the span, and the one cross-thread
synchronisation outside the locks is the sweep claim, a CAS of `s.sweepgen` from `sg-2` to
`sg-1`.  This module writes that system as a state (`GoRuntime.Heap`) and a step relation
(`GoRuntime.Step`) whose steps are the critical sections and unlocked stretches of the source:

* `mCentral_CacheSpan`, cut at each `unlock`: the locked scan of `c.nonempty` then `c.empty`
  (`GoRuntime.cacheSpanScan`), the unlocked sweep of a claimed span, `mCentral_Grow`, its locked
  insertion into `c.empty`, and `havespan:`;
* `mCentral_UncacheSpan`, one locked section (`GoRuntime.uncacheSpan`);
* `mCentral_FreeSpan` from the background sweeper, cut at `lock(&c.lock)`: the unlocked splice
  and the locked relinking (`GoRuntime.freeSpanLocked`), and with `preserve` from `CacheSpan`;
* the pop of `mallocgc`, and any write of the mutator into an object it was handed.

Each mcache's refill records where its call of `CacheSpan` has got to (`GoRuntime.Refill`).
The ghost map `owner` records who holds each span (the central lists, a refill, a cache, or the
background sweeper, whose progress it also records), and the ghost map `live` the slots of each
span that were handed out and not yet swept.  A `throw` of the source sets `thrown`.

The sweeper and the page heap are outside the source: a sweep frees any non-empty list of
distinct handed-out objects that the mutator has linked (`GoRuntime.FreeObjs`), and
`mHeap_Alloc` returns a run of pages that no span holds.

Main definitions:

* `GoRuntime.Heap`, `GoRuntime.Heap.init` — the state and the empty heap;
* `GoRuntime.Step`, `GoRuntime.Reachable` — the steps and the states they reach.
-/

import GoRuntime.Span

set_option autoImplicit false

namespace GoRuntime

/-! ### The state -/

/-- Where an mcache's call of `mCache_Refill`/`mCentral_CacheSpan` for class `c` has got to.
`sg` is the `mheap_.sweepgen` read on entry. -/
inductive Refill where
  /-- No refill in progress. -/
  | idle
  /-- At `retry:`, about to take `c.lock` and scan the lists. -/
  | scan (c : ℕ) (sg : UInt32)
  /-- Claimed span `s` of `c.nonempty`, moved it to `c.empty`, and is sweeping it. -/
  | sweepNonempty (c s : ℕ) (sg : UInt32)
  /-- Claimed span `s` of `c.empty` and is sweeping it. -/
  | sweepEmpty (c s : ℕ) (sg : UInt32)
  /-- Found nothing and is calling `mCentral_Grow`. -/
  | grow (c : ℕ)
  /-- `mCentral_Grow` returned `s`, about to insert it into `c.empty`. -/
  | grown (c s : ℕ)
  /-- At `havespan:` with span `s`. -/
  | havespan (c s : ℕ)
  /-- `CacheSpan` returned and the span is installed; `mallocgc` retries its pop. -/
  | popping (c : ℕ)
deriving DecidableEq

/-- Who holds a span (ghost).  The background sweeper's entries also say how far its sweep has
got: claimed and sweeping, or spliced and about to take `c.lock` in `mCentral_FreeSpan`. -/
inductive Owner where
  | central
  | refill (m : ℕ)
  | cache (m : ℕ)
  | sweeping
  | freeing (wasempty : Bool)
deriving DecidableEq

/-- The allocator's shared state: memory, the span table, the two lists of each class's
`mcentral`, `mheap_.sweepgen`, each mcache's `alloc` array and refill, and the ghost `owner`
and `live` maps. -/
structure Heap where
  mem : ℕ → ℕ
  spans : ℕ → Option MSpan
  nonempty : ℕ → List ℕ
  empty : ℕ → List ℕ
  sweepgen : UInt32
  alloc : ℕ → ℕ → Option ℕ
  refill : ℕ → Refill
  owner : ℕ → Owner
  live : ℕ → List ℕ
  thrown : Option String

/-- The heap before any span exists, with any memory contents and generation. -/
def Heap.init (mem : ℕ → ℕ) (sg : UInt32) : Heap :=
  ⟨mem, fun _ => none, fun _ => [], fun _ => [], sg, fun _ _ => none, fun _ => .idle,
    fun _ => .central, fun _ => [], none⟩

/-! ### Updates -/

namespace Heap

variable (st : Heap)

/-- Replace span `s`'s record. -/
def setSpan (s : ℕ) (sp : MSpan) : Heap :=
  { st with spans := Function.update st.spans s (some sp) }

def setOwner (s : ℕ) (o : Owner) : Heap := { st with owner := Function.update st.owner s o }

def setRefill (m : ℕ) (r : Refill) : Heap := { st with refill := Function.update st.refill m r }

def setLive (s : ℕ) (l : List ℕ) : Heap := { st with live := Function.update st.live s l }

/-- `c.alloc[sizeclass] = v` in mcache `m`. -/
def setAlloc (m c : ℕ) (v : Option ℕ) : Heap :=
  { st with alloc := Function.update st.alloc m (Function.update (st.alloc m) c v) }

def throw (msg : String) : Heap := { st with thrown := some msg }

/-- `mSpanList_Remove(s)`: take `s` off whichever list of class `c` holds it. -/
def remove (c s : ℕ) : Heap :=
  { st with nonempty := Function.update st.nonempty c ((st.nonempty c).erase s),
            empty := Function.update st.empty c ((st.empty c).erase s) }

/-- `mSpanList_Remove(s); mSpanList_InsertBack(&c.empty, s)`. -/
def moveToEmpty (c s : ℕ) : Heap :=
  let st := st.remove c s
  { st with empty := Function.update st.empty c (st.empty c ++ [s]) }

/-- `mSpanList_Remove(s); mSpanList_Insert(&c.nonempty, s)`. -/
def moveToNonempty (c s : ℕ) : Heap :=
  let st := st.remove c s
  { st with nonempty := Function.update st.nonempty c (s :: st.nonempty c) }

/-- Stamp span `s` with generation `g` (`atomicstore(&s.sweepgen, g)` or the claiming CAS). -/
def stamp (s : ℕ) (g : UInt32) : Heap :=
  match st.spans s with
  | some sp => st.setSpan s { sp with sweepgen := g }
  | none => st

end Heap

/-! ### Field lemmas of the updates -/

namespace Heap

variable (st : Heap)

@[simp] theorem setSpan_mem (s : ℕ) (sp : MSpan) : (st.setSpan s sp).mem = st.mem := rfl
@[simp] theorem setSpan_spans (s : ℕ) (sp : MSpan) :
    (st.setSpan s sp).spans = Function.update st.spans s (some sp) := rfl
@[simp] theorem setSpan_nonempty (s : ℕ) (sp : MSpan) :
    (st.setSpan s sp).nonempty = st.nonempty := rfl
@[simp] theorem setSpan_empty (s : ℕ) (sp : MSpan) : (st.setSpan s sp).empty = st.empty := rfl
@[simp] theorem setSpan_sweepgen (s : ℕ) (sp : MSpan) :
    (st.setSpan s sp).sweepgen = st.sweepgen := rfl
@[simp] theorem setSpan_alloc (s : ℕ) (sp : MSpan) : (st.setSpan s sp).alloc = st.alloc := rfl
@[simp] theorem setSpan_refill (s : ℕ) (sp : MSpan) : (st.setSpan s sp).refill = st.refill := rfl
@[simp] theorem setSpan_owner (s : ℕ) (sp : MSpan) : (st.setSpan s sp).owner = st.owner := rfl
@[simp] theorem setSpan_live (s : ℕ) (sp : MSpan) : (st.setSpan s sp).live = st.live := rfl
@[simp] theorem setSpan_thrown (s : ℕ) (sp : MSpan) : (st.setSpan s sp).thrown = st.thrown := rfl
@[simp] theorem setOwner_mem (s : ℕ) (o : Owner) : (st.setOwner s o).mem = st.mem := rfl
@[simp] theorem setOwner_spans (s : ℕ) (o : Owner) : (st.setOwner s o).spans = st.spans := rfl
@[simp] theorem setOwner_nonempty (s : ℕ) (o : Owner) :
    (st.setOwner s o).nonempty = st.nonempty := rfl
@[simp] theorem setOwner_empty (s : ℕ) (o : Owner) : (st.setOwner s o).empty = st.empty := rfl
@[simp] theorem setOwner_sweepgen (s : ℕ) (o : Owner) :
    (st.setOwner s o).sweepgen = st.sweepgen := rfl
@[simp] theorem setOwner_alloc (s : ℕ) (o : Owner) : (st.setOwner s o).alloc = st.alloc := rfl
@[simp] theorem setOwner_refill (s : ℕ) (o : Owner) : (st.setOwner s o).refill = st.refill := rfl
@[simp] theorem setOwner_owner (s : ℕ) (o : Owner) :
    (st.setOwner s o).owner = Function.update st.owner s o := rfl
@[simp] theorem setOwner_thrown (s : ℕ) (o : Owner) : (st.setOwner s o).thrown = st.thrown := rfl
@[simp] theorem setRefill_mem (m : ℕ) (r : Refill) : (st.setRefill m r).mem = st.mem := rfl
@[simp] theorem setRefill_spans (m : ℕ) (r : Refill) : (st.setRefill m r).spans = st.spans := rfl
@[simp] theorem setRefill_nonempty (m : ℕ) (r : Refill) :
    (st.setRefill m r).nonempty = st.nonempty := rfl
@[simp] theorem setRefill_empty (m : ℕ) (r : Refill) : (st.setRefill m r).empty = st.empty := rfl
@[simp] theorem setRefill_sweepgen (m : ℕ) (r : Refill) :
    (st.setRefill m r).sweepgen = st.sweepgen := rfl
@[simp] theorem setRefill_alloc (m : ℕ) (r : Refill) : (st.setRefill m r).alloc = st.alloc := rfl
@[simp] theorem setRefill_refill (m : ℕ) (r : Refill) :
    (st.setRefill m r).refill = Function.update st.refill m r := rfl
@[simp] theorem setRefill_owner (m : ℕ) (r : Refill) : (st.setRefill m r).owner = st.owner := rfl
@[simp] theorem setRefill_live (m : ℕ) (r : Refill) : (st.setRefill m r).live = st.live := rfl
@[simp] theorem setRefill_thrown (m : ℕ) (r : Refill) : (st.setRefill m r).thrown = st.thrown := rfl
@[simp] theorem setLive_mem (s : ℕ) (l : List ℕ) : (st.setLive s l).mem = st.mem := rfl
@[simp] theorem setLive_spans (s : ℕ) (l : List ℕ) : (st.setLive s l).spans = st.spans := rfl
@[simp] theorem setLive_nonempty (s : ℕ) (l : List ℕ) :
    (st.setLive s l).nonempty = st.nonempty := rfl
@[simp] theorem setLive_empty (s : ℕ) (l : List ℕ) : (st.setLive s l).empty = st.empty := rfl
@[simp] theorem setLive_sweepgen (s : ℕ) (l : List ℕ) :
    (st.setLive s l).sweepgen = st.sweepgen := rfl
@[simp] theorem setLive_alloc (s : ℕ) (l : List ℕ) : (st.setLive s l).alloc = st.alloc := rfl
@[simp] theorem setLive_refill (s : ℕ) (l : List ℕ) : (st.setLive s l).refill = st.refill := rfl
@[simp] theorem setLive_owner (s : ℕ) (l : List ℕ) : (st.setLive s l).owner = st.owner := rfl
@[simp] theorem setLive_live (s : ℕ) (l : List ℕ) :
    (st.setLive s l).live = Function.update st.live s l := rfl
@[simp] theorem setLive_thrown (s : ℕ) (l : List ℕ) : (st.setLive s l).thrown = st.thrown := rfl
@[simp] theorem setAlloc_mem (m c : ℕ) (v : Option ℕ) : (st.setAlloc m c v).mem = st.mem := rfl
@[simp] theorem setAlloc_spans (m c : ℕ) (v : Option ℕ) :
    (st.setAlloc m c v).spans = st.spans := rfl
@[simp] theorem setAlloc_nonempty (m c : ℕ) (v : Option ℕ) :
    (st.setAlloc m c v).nonempty = st.nonempty := rfl
@[simp] theorem setAlloc_empty (m c : ℕ) (v : Option ℕ) :
    (st.setAlloc m c v).empty = st.empty := rfl
@[simp] theorem setAlloc_sweepgen (m c : ℕ) (v : Option ℕ) :
    (st.setAlloc m c v).sweepgen = st.sweepgen := rfl
@[simp] theorem setAlloc_alloc (m c : ℕ) (v : Option ℕ) :
    (st.setAlloc m c v).alloc = Function.update st.alloc m (Function.update (st.alloc m) c v) := rfl
@[simp] theorem setAlloc_refill (m c : ℕ) (v : Option ℕ) :
    (st.setAlloc m c v).refill = st.refill := rfl
@[simp] theorem setAlloc_owner (m c : ℕ) (v : Option ℕ) :
    (st.setAlloc m c v).owner = st.owner := rfl
@[simp] theorem setAlloc_live (m c : ℕ) (v : Option ℕ) : (st.setAlloc m c v).live = st.live := rfl
@[simp] theorem setAlloc_thrown (m c : ℕ) (v : Option ℕ) :
    (st.setAlloc m c v).thrown = st.thrown := rfl
@[simp] theorem throw_mem (msg : String) : (st.throw msg).mem = st.mem := rfl
@[simp] theorem throw_spans (msg : String) : (st.throw msg).spans = st.spans := rfl
@[simp] theorem throw_nonempty (msg : String) : (st.throw msg).nonempty = st.nonempty := rfl
@[simp] theorem throw_empty (msg : String) : (st.throw msg).empty = st.empty := rfl
@[simp] theorem throw_sweepgen (msg : String) : (st.throw msg).sweepgen = st.sweepgen := rfl
@[simp] theorem throw_alloc (msg : String) : (st.throw msg).alloc = st.alloc := rfl
@[simp] theorem throw_refill (msg : String) : (st.throw msg).refill = st.refill := rfl
@[simp] theorem throw_owner (msg : String) : (st.throw msg).owner = st.owner := rfl
@[simp] theorem throw_live (msg : String) : (st.throw msg).live = st.live := rfl
@[simp] theorem throw_thrown (msg : String) :
    (st.throw msg).thrown = some msg := rfl
@[simp] theorem remove_mem (c s : ℕ) : (st.remove c s).mem = st.mem := rfl
@[simp] theorem remove_spans (c s : ℕ) : (st.remove c s).spans = st.spans := rfl
@[simp] theorem remove_nonempty (c s : ℕ) :
    (st.remove c s).nonempty = Function.update st.nonempty c ((st.nonempty c).erase s) := rfl
@[simp] theorem remove_empty (c s : ℕ) :
    (st.remove c s).empty = Function.update st.empty c ((st.empty c).erase s) := rfl
@[simp] theorem remove_sweepgen (c s : ℕ) : (st.remove c s).sweepgen = st.sweepgen := rfl
@[simp] theorem remove_alloc (c s : ℕ) : (st.remove c s).alloc = st.alloc := rfl
@[simp] theorem remove_refill (c s : ℕ) : (st.remove c s).refill = st.refill := rfl
@[simp] theorem remove_owner (c s : ℕ) : (st.remove c s).owner = st.owner := rfl
@[simp] theorem remove_live (c s : ℕ) : (st.remove c s).live = st.live := rfl
@[simp] theorem remove_thrown (c s : ℕ) : (st.remove c s).thrown = st.thrown := rfl
@[simp] theorem moveToEmpty_mem (c s : ℕ) : (st.moveToEmpty c s).mem = st.mem := rfl
@[simp] theorem moveToEmpty_spans (c s : ℕ) : (st.moveToEmpty c s).spans = st.spans := rfl
@[simp] theorem moveToEmpty_nonempty (c s : ℕ) :
    (st.moveToEmpty c s).nonempty = Function.update st.nonempty c ((st.nonempty c).erase s) := rfl
@[simp] theorem moveToEmpty_empty (c s : ℕ) :
    (st.moveToEmpty c s).empty = Function.update st.empty c ((st.empty c).erase s ++ [s]) := by
  simp [moveToEmpty, moveToNonempty, remove]
@[simp] theorem moveToEmpty_sweepgen (c s : ℕ) : (st.moveToEmpty c s).sweepgen = st.sweepgen := rfl
@[simp] theorem moveToEmpty_alloc (c s : ℕ) : (st.moveToEmpty c s).alloc = st.alloc := rfl
@[simp] theorem moveToEmpty_refill (c s : ℕ) : (st.moveToEmpty c s).refill = st.refill := rfl
@[simp] theorem moveToEmpty_owner (c s : ℕ) : (st.moveToEmpty c s).owner = st.owner := rfl
@[simp] theorem moveToEmpty_live (c s : ℕ) : (st.moveToEmpty c s).live = st.live := rfl
@[simp] theorem moveToEmpty_thrown (c s : ℕ) : (st.moveToEmpty c s).thrown = st.thrown := rfl
@[simp] theorem moveToNonempty_mem (c s : ℕ) : (st.moveToNonempty c s).mem = st.mem := rfl
@[simp] theorem moveToNonempty_spans (c s : ℕ) : (st.moveToNonempty c s).spans = st.spans := rfl
@[simp] theorem moveToNonempty_nonempty (c s : ℕ) :
    (st.moveToNonempty c s).nonempty =
      Function.update st.nonempty c (s :: (st.nonempty c).erase s) := by
  simp [moveToEmpty, moveToNonempty, remove]
@[simp] theorem moveToNonempty_empty (c s : ℕ) :
    (st.moveToNonempty c s).empty = Function.update st.empty c ((st.empty c).erase s) := rfl
@[simp] theorem moveToNonempty_sweepgen (c s : ℕ) :
    (st.moveToNonempty c s).sweepgen = st.sweepgen := rfl
@[simp] theorem moveToNonempty_alloc (c s : ℕ) : (st.moveToNonempty c s).alloc = st.alloc := rfl
@[simp] theorem moveToNonempty_refill (c s : ℕ) : (st.moveToNonempty c s).refill = st.refill := rfl
@[simp] theorem moveToNonempty_owner (c s : ℕ) : (st.moveToNonempty c s).owner = st.owner := rfl
@[simp] theorem moveToNonempty_live (c s : ℕ) : (st.moveToNonempty c s).live = st.live := rfl
@[simp] theorem moveToNonempty_thrown (c s : ℕ) : (st.moveToNonempty c s).thrown = st.thrown := rfl
@[simp] theorem stamp_mem (s : ℕ) (g : UInt32) : (st.stamp s g).mem = st.mem := by
  unfold stamp; split <;> rfl
@[simp] theorem stamp_nonempty (s : ℕ) (g : UInt32) : (st.stamp s g).nonempty = st.nonempty := by
  unfold stamp; split <;> rfl
@[simp] theorem stamp_empty (s : ℕ) (g : UInt32) : (st.stamp s g).empty = st.empty := by
  unfold stamp; split <;> rfl
@[simp] theorem stamp_sweepgen (s : ℕ) (g : UInt32) : (st.stamp s g).sweepgen = st.sweepgen := by
  unfold stamp; split <;> rfl
@[simp] theorem stamp_alloc (s : ℕ) (g : UInt32) : (st.stamp s g).alloc = st.alloc := by
  unfold stamp; split <;> rfl
@[simp] theorem stamp_refill (s : ℕ) (g : UInt32) : (st.stamp s g).refill = st.refill := by
  unfold stamp; split <;> rfl
@[simp] theorem stamp_owner (s : ℕ) (g : UInt32) : (st.stamp s g).owner = st.owner := by
  unfold stamp; split <;> rfl
@[simp] theorem stamp_live (s : ℕ) (g : UInt32) : (st.stamp s g).live = st.live := by
  unfold stamp; split <;> rfl
@[simp] theorem stamp_thrown (s : ℕ) (g : UInt32) : (st.stamp s g).thrown = st.thrown := by
  unfold stamp; split <;> rfl
/-- Stamping a span with the generation it carries changes nothing. -/
theorem stamp_of_eq {s : ℕ} {sp : MSpan} (hs : st.spans s = some sp) :
    st.stamp s sp.sweepgen = st := by
  have hsp : ({ sp with sweepgen := sp.sweepgen } : MSpan) = sp := rfl
  simp only [stamp, hs, hsp, setSpan]
  rw [← hs, Function.update_eq_self]

@[simp] theorem stamp_spans (s : ℕ) (g : UInt32) :
    (st.stamp s g).spans =
      Function.update st.spans s ((st.spans s).map fun sp => { sp with sweepgen := g }) := by
  unfold stamp; split <;> rename_i h <;> simp [h]

end Heap

/-! ### `mCentral_CacheSpan` -/

/-- The first span of a list that is not being swept by someone else (`s.sweepgen != sg-1`);
the scans of `CacheSpan` skip the others with `continue`. -/
def firstUnclaimed (spans : ℕ → Option MSpan) (sg : UInt32) : List ℕ → Option ℕ
  | [] => none
  | s :: l =>
      if (spans s).map MSpan.sweepgen = some (sg - 1) then firstUnclaimed spans sg l else some s

/-- `s.sweepgen == sg-2`: the span needs sweeping. -/
def needsSweep (spans : ℕ → Option MSpan) (sg : UInt32) (s : ℕ) : Bool :=
  (spans s).map MSpan.sweepgen = some (sg - 2)

/-- The locked section of `mCentral_CacheSpan` from `lock(&c.lock)` (or `retry:`) to the next
`unlock`, for mcache `m`: take the first unclaimed span of `c.nonempty`, claiming it for
sweeping if it needs it; otherwise claim the first unclaimed span of `c.empty` if it needs
sweeping; otherwise go and grow.  Either taken span is moved to the back of `c.empty`. -/
def cacheSpanScan (st : Heap) (m c : ℕ) (sg : UInt32) : Heap :=
  match firstUnclaimed st.spans sg (st.nonempty c) with
  | some s =>
      if needsSweep st.spans sg s then
        (((st.stamp s (sg - 1)).moveToEmpty c s).setOwner s (.refill m)).setRefill m
          (.sweepNonempty c s sg)
      else ((st.moveToEmpty c s).setOwner s (.refill m)).setRefill m (.havespan c s)
  | none =>
      match firstUnclaimed st.spans sg (st.empty c) with
      | some s =>
          if needsSweep st.spans sg s then
            (((st.stamp s (sg - 1)).moveToEmpty c s).setOwner s (.refill m)).setRefill m
              (.sweepEmpty c s sg)
          else st.setRefill m (.grow c)
      | none => st.setRefill m (.grow c)

/-- What a sweep hands `mCentral_FreeSpan` for span `s`: a non-empty list of distinct objects
of `s` that were handed out, linked through their first words (the sweeper's guarantee). -/
structure FreeObjs (st : Heap) (s : ℕ) (objs : List ℕ) : Prop where
  ne_nil : objs ≠ []
  nodup : objs.Nodup
  live : ∀ a ∈ objs, a ∈ st.live s
  linked : Linked st.mem objs

/-- The splice of `mCentral_FreeSpan` (before `c.lock`) on span `s`, with its `incache` check. -/
def Heap.freeSpanSplice (st : Heap) (s : ℕ) (objs : List ℕ) (hne : objs ≠ []) : Heap :=
  match st.spans s with
  | none => st
  | some sp =>
      if sp.incache then st.throw "freespan into cached span" else
      let r := sp.splice st.mem (objs.head hne) (objs.getLast hne) objs.length
      ({ st with mem := r.1 }.setSpan s r.2).setLive s ((st.live s).filter (· ∉ objs))

/-- `mSpan_Sweep(s, true)` from `CacheSpan` on claimed span `s` of class `c`: free `objs`
through `mCentral_FreeSpan(..., preserve=true)`, which checks that `s` is on a list and stamps
it, or, when nothing is freed, just stamp it with `sg`. -/
def sweepPreserve (st : Heap) (c s : ℕ) (objs : List ℕ) (sg : UInt32) : Heap :=
  match objs with
  | [] => st.stamp s sg
  | a :: l =>
      let st' := st.freeSpanSplice s (a :: l) (List.cons_ne_nil a l)
      if st'.thrown.isSome then st' else
      if s ∉ st.nonempty c ++ st.empty c then st'.throw "can't preserve unlinked span" else
      st'.stamp s sg

/-- After the sweep of a claimed span: a span claimed from `c.nonempty` goes to `havespan`; one
claimed from `c.empty` too if the sweep freed something, and otherwise `CacheSpan` takes the
lock again and retries. -/
def afterSweep (st : Heap) (m : ℕ) : Refill → Heap
  | .sweepNonempty c s _ => st.setRefill m (.havespan c s)
  | .sweepEmpty c s sg =>
      if (st.spans s).map MSpan.freelist ≠ some 0 then st.setRefill m (.havespan c s)
      else (st.setOwner s .central).setRefill m (.scan c sg)
  | r => st.setRefill m r

/-- `havespan:` for mcache `m`: the two checks, `s.incache = true`, and `mCache_Refill`'s
`c.alloc[sizeclass] = s`. -/
def haveSpan (st : Heap) (m c s : ℕ) : Heap :=
  match st.spans s with
  | none => st
  | some sp =>
      if sp.cap - sp.ref.toNat = 0 then st.throw "empty span"
      else if sp.freelist = 0 then st.throw "freelist empty"
      else
        (((st.setSpan s { sp with incache := true }).setOwner s (.cache m)).setRefill m
            (.popping c)).setAlloc m c (some s)

/-! ### `mCentral_UncacheSpan`, `mCentral_FreeSpan`, and the pop -/

/-- `mCentral_UncacheSpan` on mcache `m`'s span `s` of class `c`, with the release of the
mcache's `alloc` entry: clear `incache`, throw on a span with no objects handed out, and move
the span to `c.nonempty` if it has free slots. -/
def uncacheSpan (st : Heap) (m c s : ℕ) : Heap :=
  match st.spans s with
  | none => st
  | some sp =>
      let st' := ((st.setSpan s { sp with incache := false }).setOwner s .central).setAlloc m c none
      if sp.ref.toNat = 0 then st'.throw "uncaching full span"
      else if 0 < sp.cap - sp.ref.toNat then st'.moveToNonempty c s else st'

/-- The locked half of `mCentral_FreeSpan` (without `preserve`): move the span to
`c.nonempty` if it was empty, stamp it, and if no object of it is handed out any more take it
off the lists and return it to the heap. -/
def freeSpanLocked (st : Heap) (c s : ℕ) (wasempty : Bool) : Heap :=
  let st := if wasempty then st.moveToNonempty c s else st
  let st := (st.stamp s st.sweepgen).setOwner s .central
  match st.spans s with
  | none => st
  | some sp =>
      if sp.ref ≠ 0 then st
      else { st.remove c s with spans := Function.update st.spans s none }

/-- The pop of `mallocgc` from mcache `m`'s span `s`: `v := s.freelist; s.freelist =
v.ptr().next; s.ref++`, with `v` now handed out. -/
def popSlot (st : Heap) (s : ℕ) : Heap :=
  match st.spans s with
  | none => st
  | some sp => (st.setSpan s (sp.pop st.mem).2).setLive s (sp.freelist :: st.live s)

/-! ### The steps -/

/-- The page runs `[start, start + npages)` of two spans do not meet. -/
def PagesDisjoint (start npages start' npages' : ℕ) : Prop :=
  start + npages ≤ start' ∨ start' + npages' ≤ start

/-- One atomic step of the allocator, for a class table `sc`. -/
inductive Step (sc : SizeClasses) : Heap → Heap → Prop where
  /-- `mallocgc` finds no cached span of class `c` (`0 < c < _NumSizeClasses`) and calls
  `mCache_Refill`. -/
  | refill (st : Heap) (m c : ℕ) (hc : 0 < c) (hc' : c < numSizeClasses)
      (hidle : st.refill m = .idle) (hnone : st.alloc m c = none) :
      Step sc st (st.setRefill m (.scan c st.sweepgen))
  /-- The locked scan of `CacheSpan`. -/
  | scan (st : Heap) (m c : ℕ) (sg : UInt32) (h : st.refill m = .scan c sg) :
      Step sc st (cacheSpanScan st m c sg)
  /-- The unlocked sweep of a span `CacheSpan` claimed, freeing `objs` (possibly none). -/
  | sweep (st : Heap) (m : ℕ) (r : Refill) (c s : ℕ) (sg : UInt32) (objs : List ℕ)
      (hr : st.refill m = r) (hcase : r = .sweepNonempty c s sg ∨ r = .sweepEmpty c s sg)
      (hobjs : objs = [] ∨ FreeObjs st s objs) :
      Step sc st (afterSweep (sweepPreserve st c s objs sg) m r)
  /-- `mCentral_Grow`: `mHeap_Alloc` returns the run at page `start`, which no span holds, and
  the span record `i`, which is free. -/
  | grow (st : Heap) (m c start i : ℕ) (mem' : ℕ → ℕ) (sp : MSpan)
      (hr : st.refill m = .grow c) (hstart : 0 < start) (hi : st.spans i = none)
      (hfresh : ∀ t tp, st.spans t = some tp →
        PagesDisjoint start (sc.classToAllocnpages c) tp.start tp.npages)
      (hgrow : mCentralGrow sc c start st.sweepgen st.mem = .ok (mem', sp)) :
      Step sc st ((({ st with mem := mem' }.setSpan i sp).setOwner i (.refill m)).setRefill m
        (.grown c i))
  /-- `lock(&c.lock); mSpanList_InsertBack(&c.empty, s); unlock(&c.lock)` after `Grow`. -/
  | insert (st : Heap) (m c s : ℕ) (hr : st.refill m = .grown c s) :
      Step sc st ({ st with empty := Function.update st.empty c (st.empty c ++ [s]) }.setRefill m
        (.havespan c s))
  /-- `havespan:`. -/
  | haveSpan (st : Heap) (m c s : ℕ) (hr : st.refill m = .havespan c s) :
      Step sc st (haveSpan st m c s)
  /-- `mallocgc` pops its cached span of class `c`, between refills or to finish one. -/
  | pop (st : Heap) (m c s : ℕ) (sp : MSpan)
      (hr : st.refill m = .idle ∨ st.refill m = .popping c) (ha : st.alloc m c = some s)
      (hs : st.spans s = some sp) (hne : sp.freelist ≠ 0) :
      Step sc (st) ((popSlot st s).setRefill m .idle)
  /-- The mcache releases its span of class `c` through `mCentral_UncacheSpan`. -/
  | uncache (st : Heap) (m c s : ℕ) (hr : st.refill m = .idle) (ha : st.alloc m c = some s) :
      Step sc st (uncacheSpan st m c s)
  /-- The mutator writes a word inside an object it was handed. -/
  | write (st : Heap) (s : ℕ) (sp : MSpan) (o a v : ℕ) (hs : st.spans s = some sp)
      (ho : o ∈ st.live s) (ha : o ≤ a ∧ a < o + sp.elemsize) :
      Step sc st { st with mem := Function.update st.mem a v }
  /-- The background sweeper's claim: `cas(&s.sweepgen, sg-2, sg-1)`. -/
  | bgClaim (st : Heap) (s : ℕ) (sp : MSpan) (hs : st.spans s = some sp)
      (hsg : sp.sweepgen = st.sweepgen - 2) :
      Step sc st ((st.stamp s (st.sweepgen - 1)).setOwner s .sweeping)
  /-- The background sweep frees nothing: `atomicstore(&s.sweepgen, sweepgen)`. -/
  | bgNoFree (st : Heap) (s : ℕ) (ho : st.owner s = .sweeping) :
      Step sc st ((st.stamp s st.sweepgen).setOwner s .central)
  /-- The background sweep frees `objs`: the unlocked half of `mCentral_FreeSpan`. -/
  | bgSplice (st : Heap) (s : ℕ) (sp : MSpan) (objs : List ℕ) (ho : st.owner s = .sweeping)
      (hs : st.spans s = some sp) (hobjs : FreeObjs st s objs) :
      Step sc st ((st.freeSpanSplice s objs hobjs.ne_nil).setOwner s
        (.freeing (sp.freelist = 0)))
  /-- The locked half of the background `mCentral_FreeSpan`. -/
  | bgLocked (st : Heap) (s : ℕ) (sp : MSpan) (w : Bool) (ho : st.owner s = .freeing w)
      (hs : st.spans s = some sp) :
      Step sc st (freeSpanLocked st sp.sizeclass s w)
  /-- A new collection cycle: with every mcache flushed, every refill and sweep finished and
  every span swept, `mheap_.sweepgen += 2`. -/
  | newGen (st : Heap) (hidle : ∀ m, st.refill m = .idle) (hflush : ∀ m c, st.alloc m c = none)
      (hown : ∀ s, st.owner s = .central)
      (hswept : ∀ s sp, st.spans s = some sp → sp.sweepgen = st.sweepgen) :
      Step sc st { st with sweepgen := st.sweepgen + 2 }

/-- The states the allocator reaches from an empty heap. -/
inductive Reachable (sc : SizeClasses) : Heap → Prop where
  | init (mem : ℕ → ℕ) (sg : UInt32) : Reachable sc (Heap.init mem sg)
  | step {st st' : Heap} : Reachable sc st → Step sc st st' → Reachable sc st'

end GoRuntime
