import Mathlib.Data.List.Perm.Basic

/-! # Filling gaps from a queue

Some slots keep a value of their own and the others are gaps. A queue fills the gaps in
turn, and once it is empty the rest of the gaps are left blank.
-/

namespace Gaps

variable {Slot Value : Type*}

/-- The slots filled, and what is left of the queue. -/
def fill (kept : Slot → Option Value) (blank : Value) :
    List Slot → List Value → List Value × List Value
  | [], queue => ([], queue)
  | slot :: rest, queue =>
      match kept slot, queue with
      | some value, queue =>
          (value :: (fill kept blank rest queue).1, (fill kept blank rest queue).2)
      | none, [] => (blank :: (fill kept blank rest []).1, (fill kept blank rest []).2)
      | none, head :: tail =>
          (head :: (fill kept blank rest tail).1, (fill kept blank rest tail).2)

/-- How many slots are gaps. -/
def count (kept : Slot → Option Value) (slots : List Slot) : Nat :=
  slots.countP fun slot => (kept slot).isNone

variable {kept : Slot → Option Value} {blank value : Value} {slots rest : List Slot}
  {slot : Slot} {queue : List Value}

theorem count_cons_some (keeps : kept slot = some value) :
    count kept (slot :: rest) = count kept rest := by
  simp [count, keeps]

theorem count_cons_none (gap : kept slot = none) :
    count kept (slot :: rest) = count kept rest + 1 := by
  simp [count, gap]

/-- **What is left** of the queue is what the gaps did not take. -/
theorem fill_left (kept : Slot → Option Value) (blank : Value) (slots : List Slot)
    (queue : List Value) : (fill kept blank slots queue).2 = queue.drop (count kept slots) := by
  induction slots generalizing queue with
  | nil => rfl
  | cons slot rest ih =>
      cases keeps : kept slot with
      | some value => simp [fill, keeps, count_cons_some keeps, ih]
      | none => cases queue <;> simp [fill, keeps, count_cons_none keeps, ih]

/-- **What the slots hold** are the values kept, those taken from the queue and blanks. -/
theorem fill_perm (kept : Slot → Option Value) (blank : Value) (slots : List Slot)
    (queue : List Value) :
    (fill kept blank slots queue).1.Perm (slots.filterMap kept ++ (queue.take (count kept slots) ++
      List.replicate (count kept slots - queue.length) blank)) := by
  induction slots generalizing queue with
  | nil => simp [fill, count]
  | cons slot rest ih =>
      cases keeps : kept slot with
      | some value =>
          rw [count_cons_some keeps, List.filterMap_cons_some keeps]
          simpa [fill, keeps] using ih queue
      | none =>
          rw [count_cons_none keeps, List.filterMap_cons_none keeps]
          cases queue with
          | nil =>
              have filled := (ih []).cons blank
              simp only [List.take_nil, List.nil_append, List.length_nil, Nat.sub_zero] at filled ⊢
              simp only [fill, keeps, List.replicate_succ]
              exact filled.trans List.perm_middle.symm
          | cons head tail =>
              have filled := (ih tail).cons head
              simp only [fill, keeps, List.take_succ_cons, List.length_cons,
                Nat.add_sub_add_right, List.cons_append]
              exact filled.trans List.perm_middle.symm

/-- A queue of the right length fills every gap. -/
theorem fill_perm_of_length (blank : Value) (enough : queue.length = count kept slots) :
    (fill kept blank slots queue).1.Perm (slots.filterMap kept ++ queue) := by
  have filled := fill_perm kept blank slots queue
  rwa [← enough, List.take_length, Nat.sub_self, List.replicate_zero, List.append_nil] at filled

/-- A queue that is too short leaves a blank. -/
theorem blank_mem_fill (short : queue.length < count kept slots) :
    blank ∈ (fill kept blank slots queue).1 := by
  refine (fill_perm kept blank slots queue).mem_iff.mpr ?_
  have blanks : blank ∈ List.replicate (count kept slots - queue.length) blank :=
    List.mem_replicate.mpr ⟨Nat.ne_of_gt (Nat.sub_pos_of_lt short), rfl⟩
  exact List.mem_append_right _ (List.mem_append_right _ blanks)

/-- **A slot that keeps its value** has it at its own index. -/
theorem fill_getElem?_of_kept {index : Nat} (here : slots[index]? = some slot)
    (keeps : kept slot = some value) : (fill kept blank slots queue).1[index]? = some value := by
  induction slots generalizing index queue with
  | nil => cases here
  | cons first rest ih =>
      cases index with
      | zero =>
          cases here
          simp [fill, keeps]
      | succ index =>
          cases atFirst : kept first with
          | some _ => simpa [fill, atFirst] using ih here
          | none => cases queue <;> simpa [fill, atFirst] using ih here

/-- **The gaps** hold the queue in its order. -/
theorem fill_filter (own : Value → Bool)
    (notKept : ∀ slot ∈ slots, ∀ value, kept slot = some value → own value = false)
    (queued : ∀ value ∈ queue, own value = true) (enough : queue.length = count kept slots) :
    (fill kept blank slots queue).1.filter own = queue := by
  induction slots generalizing queue with
  | nil =>
      rw [List.length_eq_zero_iff.mp enough]
      rfl
  | cons slot rest ih =>
      have restNotKept := fun other member => notKept other (List.mem_cons_of_mem slot member)
      cases keeps : kept slot with
      | some value =>
          rw [count_cons_some keeps] at enough
          have foreign := notKept slot List.mem_cons_self value keeps
          simpa [fill, keeps, foreign] using ih restNotKept queued enough
      | none =>
          rw [count_cons_none keeps] at enough
          cases queue with
          | nil => cases enough
          | cons head tail =>
              obtain ⟨isOwn, tailOwn⟩ := List.forall_mem_cons.mp queued
              have filled := ih restNotKept tailOwn (Nat.succ.inj enough)
              simp [fill, keeps, isOwn, filled]

end Gaps
