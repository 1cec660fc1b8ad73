import Mathlib.Data.List.Nodup
import Mathlib.Logic.Function.Basic

/-!
# Intrusive queues

A queue whose links are a field of its elements: a head, a tail and a `next` pointer for every
element that may be queued. Elements are appended behind the tail and taken from the head, as in
C code that keeps `Head`, `Tail` and `Node->Next`.

* `Queue.push` and `Queue.pop` follow the pointer code.
* `Queue.Holds q l`: the pointers of `q` spell the list `l`, without repetition. A queue that
  holds a list is finite, acyclic and ends at its tail.
* `Holds.push` and `Holds.pop`: the pointer operations append and take off. `Holds.congr` is the
  frame: only the links of the elements in the list matter.
-/

namespace NtxKernel.Foundations

variable {ι : Type*}

/-- Head and tail pointers and the link of every element. -/
@[ext]
structure Queue (ι : Type*) where
  next : ι → Option ι
  head : Option ι
  tail : Option ι

/-- Following `next` from the first element of the list spells the list and then stops. -/
def Linked (next : ι → Option ι) : List ι → Prop
  | [] => True
  | x :: l => next x = l.head? ∧ Linked next l

namespace Queue

variable [DecidableEq ι]

/-- Clear the link of `x` and hang it behind the tail. -/
def push (q : Queue ι) (x : ι) : Queue ι :=
  match q.tail with
  | none => ⟨Function.update q.next x none, some x, some x⟩
  | some t => ⟨Function.update (Function.update q.next x none) t (some x), q.head, some x⟩

/-- Take the head off and clear its link. -/
def pop (q : Queue ι) : Queue ι × Option ι :=
  match q.head with
  | none => (q, none)
  | some x =>
    (⟨Function.update q.next x none, q.next x, if q.next x = none then none else q.tail⟩, some x)

omit [DecidableEq ι] in
/-- The pointers of the queue spell the list. -/
structure Holds (q : Queue ι) (l : List ι) : Prop where
  head_eq : q.head = l.head?
  tail_eq : q.tail = l.getLast?
  nodup : l.Nodup
  linked : Linked q.next l

end Queue

namespace Linked

variable {next next' : ι → Option ι} {l : List ι}

theorem congr (h : Linked next l) (heq : ∀ x ∈ l, next' x = next x) : Linked next' l := by
  induction l with
  | nil => trivial
  | cons x l ih =>
    refine ⟨?_, ih h.2 fun y hy => heq y (List.mem_cons_of_mem x hy)⟩
    rw [heq x List.mem_cons_self]
    exact h.1

theorem append [DecidableEq ι] (h : Linked next l) (hl : l ≠ []) {x : ι} (hx : x ∉ l)
    (hnodup : l.Nodup) :
    Linked (Function.update (Function.update next x none) (l.getLast hl) (some x)) (l ++ [x]) := by
  induction l with
  | nil => exact absurd rfl hl
  | cons y l ih =>
    have hxy : x ≠ y := fun heq => hx (heq ▸ List.mem_cons_self)
    have hxl : x ∉ l := fun hmem => hx (List.mem_cons_of_mem y hmem)
    rcases eq_or_ne l [] with rfl | hne
    · refine ⟨?_, ?_, trivial⟩
      · simp
      · simp [hxy]
    · have hylast : y ≠ l.getLast hne := by
        intro heq
        exact (List.nodup_cons.1 hnodup).1 (heq ▸ List.getLast_mem hne)
      refine ⟨?_, ?_⟩
      · rw [List.getLast_cons hne, Function.update_of_ne hylast, Function.update_of_ne hxy.symm,
          h.1]
        exact (List.head?_append_of_ne_nil l hne).symm
      · rw [List.getLast_cons hne]
        exact ih h.2 hne hxl (List.nodup_cons.1 hnodup).2

/-- The list is determined by its first element. -/
theorem unique {l' : List ι} (h : Linked next l) (h' : Linked next l')
    (hhead : l.head? = l'.head?) : l = l' := by
  induction l generalizing l' with
  | nil =>
    cases l' with
    | nil => rfl
    | cons y l' => cases hhead
  | cons x l ih =>
    cases l' with
    | nil => cases hhead
    | cons y l' =>
      obtain rfl : x = y := Option.some.inj hhead
      rw [ih h.2 h'.2 (h.1.symm.trans h'.1)]

end Linked

namespace Queue.Holds

variable [DecidableEq ι] {q q' : Queue ι} {l : List ι} {x : ι}

omit [DecidableEq ι] in
theorem congr (h : q.Holds l) (hnext : ∀ x ∈ l, q'.next x = q.next x) (hhead : q'.head = q.head)
    (htail : q'.tail = q.tail) : q'.Holds l :=
  ⟨hhead.trans h.head_eq, htail.trans h.tail_eq, h.nodup, h.linked.congr hnext⟩

omit [DecidableEq ι] in
theorem unique {l' : List ι} (h : q.Holds l) (h' : q.Holds l') : l = l' :=
  h.linked.unique h'.linked (h.head_eq.symm.trans h'.head_eq)

/-- Pushing a new element appends it. -/
theorem push (h : q.Holds l) (hx : x ∉ l) : (q.push x).Holds (l ++ [x]) := by
  have hnodup : (l ++ [x]).Nodup :=
    List.nodup_append.2 ⟨h.nodup, List.nodup_singleton x, fun y hy z hz heq =>
      hx (List.mem_singleton.1 hz ▸ heq ▸ hy)⟩
  rcases eq_or_ne l [] with rfl | hne
  · have htail : q.tail = none := h.tail_eq
    refine ⟨?_, ?_, hnodup, ?_⟩ <;> simp [Queue.push, htail, Linked]
  · have htail : q.tail = some (l.getLast hne) :=
      h.tail_eq.trans (List.getLast?_eq_getLast_of_ne_nil hne)
    refine ⟨?_, ?_, hnodup, ?_⟩
    · rw [Queue.push, htail]
      exact h.head_eq.trans (List.head?_append_of_ne_nil l hne).symm
    · rw [Queue.push, htail, List.getLast?_concat]
    · rw [Queue.push, htail]
      exact h.linked.append hne hx h.nodup

omit [DecidableEq ι] in
theorem of_head_tail_none (hhead : q.head = none) (htail : q.tail = none) : q.Holds [] :=
  ⟨hhead, htail, List.nodup_nil, trivial⟩

theorem pop_nil (h : q.Holds []) : q.pop = (q, none) := by
  have hhead : q.head = none := h.head_eq
  rw [Queue.pop, hhead]

/-- Popping takes the first element off. -/
theorem pop_cons (h : q.Holds (x :: l)) : q.pop.2 = some x ∧ q.pop.1.Holds l := by
  have hhead : q.head = some x := h.head_eq
  have hnext : q.next x = l.head? := h.linked.1
  have hx : x ∉ l := (List.nodup_cons.1 h.nodup).1
  have hpop : q.pop = (⟨Function.update q.next x none, q.next x,
      if q.next x = none then none else q.tail⟩, some x) := by
    rw [Queue.pop, hhead]
  rw [hpop]
  refine ⟨rfl, hnext, ?_, (List.nodup_cons.1 h.nodup).2, h.linked.2.congr fun y hy => ?_⟩
  · cases l with
    | nil => exact if_pos hnext
    | cons y l =>
      refine (if_neg ?_).trans h.tail_eq
      rw [hnext]
      exact Option.some_ne_none y
  · have hne : y ≠ x := by
      rintro rfl
      exact hx hy
    exact Function.update_of_ne hne _ _

omit [DecidableEq ι] in
/-- A queue whose head is linked to itself holds no list. -/
theorem false_of_self_loop (h : q.Holds l) (hhead : q.head = some x)
    (hloop : q.next x = some x) : False := by
  cases l with
  | nil => cases hhead.symm.trans h.head_eq
  | cons y l =>
    obtain rfl : x = y := Option.some.inj (hhead.symm.trans h.head_eq)
    have hfirst : l.head? = some x := h.linked.1.symm.trans hloop
    exact (List.nodup_cons.1 h.nodup).1 (List.mem_of_mem_head? hfirst)

end Queue.Holds

end NtxKernel.Foundations
