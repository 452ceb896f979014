import Mathlib.Data.List.Induction

/-!
# Chains of packets

A sender that has only packets of limited size marks the end of a message by a packet that
is not full. The packets of a message form a chain: full packets, and one that is short. A
sequence of packets is framed when it is complete chains followed by at most one chain
whose end is still to come. Which packets may open a chain and which may continue it are
parameters: the first packet of a chain opens it, and every other one continues it.
-/

namespace Olimex2378.Framing

variable {α : Type*} (size : α → Nat) (full : Nat) (opens continues : α → Prop)

/-- A chain begins with a nonempty packet that opens it, and every other packet continues
it. -/
def Opened (chain : List α) : Prop :=
  ∃ first rest, chain = first :: rest ∧ opens first ∧ 0 < size first ∧
    ∀ packet ∈ rest, continues packet

/-- Full packets and one short packet. -/
def Closed (chain : List α) : Prop :=
  ∃ body last, chain = body ++ [last] ∧ (∀ packet ∈ body, size packet = full) ∧
    size last < full

/-- Full packets, the closing packet of which is still to come. -/
def Unclosed (chain : List α) : Prop := ∀ packet ∈ chain, size packet = full

/-- A sequence of packets is complete chains and then the given unfinished one, which is
empty when every chain is complete. -/
def Framed (packets unfinished : List α) : Prop :=
  ∃ chains : List (List α), packets = chains.flatten ++ unfinished ∧
    (∀ chain ∈ chains, Opened size opens continues chain ∧ Closed size full chain) ∧
    (unfinished ≠ [] → Opened size opens continues unfinished ∧ Unclosed size full unfinished)

/-- No packet is no chain. -/
theorem framed_nil : Framed size full opens continues [] [] := ⟨[], rfl, by simp, by simp⟩

variable {size full opens continues} {packets unfinished : List α} {packet : α}

/-- A chain that gets its closing packet is complete. -/
theorem Framed.close (framed : Framed size full opens continues packets unfinished)
    (opened : Opened size opens continues (unfinished ++ [packet]))
    (closes : size packet < full) : Framed size full opens continues (packets ++ [packet]) [] := by
  obtain ⟨chains, joined, complete, current⟩ := framed
  have body : Unclosed size full unfinished := by
    intro earlier member
    exact (current (List.ne_nil_of_mem member)).2 earlier member
  refine ⟨chains ++ [unfinished ++ [packet]], by simp [joined], ?_, by simp⟩
  intro chain member
  rcases List.mem_append.mp member with earlier | last
  · exact complete chain earlier
  · rw [List.mem_singleton.mp last]
    exact ⟨opened, unfinished, packet, rfl, body, closes⟩

/-- A chain that gets a full packet stays unfinished. -/
theorem Framed.extend (framed : Framed size full opens continues packets unfinished)
    (opened : Opened size opens continues (unfinished ++ [packet])) (fills : size packet = full) :
    Framed size full opens continues (packets ++ [packet]) (unfinished ++ [packet]) := by
  obtain ⟨chains, joined, complete, current⟩ := framed
  refine ⟨chains, by simp [joined], complete, fun _ => ⟨opened, ?_⟩⟩
  intro other member
  rcases List.mem_append.mp member with earlier | last
  · exact (current (List.ne_nil_of_mem earlier)).2 other earlier
  · rw [List.mem_singleton.mp last]
    exact fills

/-- A packet that opens a chain after complete chains, or continues the unfinished one,
keeps the sequence framed; the chain is then unfinished exactly when the packet is full. -/
theorem Framed.snoc (framed : Framed size full opens continues packets unfinished)
    (opened : Opened size opens continues (unfinished ++ [packet])) (fits : size packet ≤ full) :
    ∃ next, Framed size full opens continues (packets ++ [packet]) next ∧
      (next ≠ [] ↔ size packet = full) := by
  rcases Nat.lt_or_eq_of_le fits with short | fills
  · exact ⟨[], framed.close opened short, by simp [Nat.ne_of_lt short]⟩
  · exact ⟨unfinished ++ [packet], framed.extend opened fills, by simp [fills]⟩

/-- An opening packet that is not empty opens a chain of its own. -/
theorem opened_singleton (heads : opens packet) (nonempty : 0 < size packet) :
    Opened size opens continues ([] ++ [packet]) := ⟨packet, [], rfl, heads, nonempty, by simp⟩

/-- A packet that may continue a chain continues the unfinished one. -/
theorem Framed.opened_append (framed : Framed size full opens continues packets unfinished)
    (running : unfinished ≠ []) (follows : continues packet) :
    Opened size opens continues (unfinished ++ [packet]) := by
  obtain ⟨_, _, _, current⟩ := framed
  obtain ⟨⟨first, rest, split, heads, nonempty, others⟩, _⟩ := current running
  refine ⟨first, rest ++ [packet], by simp [split], heads, nonempty, ?_⟩
  intro other member
  rcases List.mem_append.mp member with earlier | last
  · exact others other earlier
  · rw [List.mem_singleton.mp last]
    exact follows

/-- One item of a sequence with cuts: a cut ends the current piece. -/
def cutAt (pieces : List (List α) × List α) : Option α → List (List α) × List α
  | none => (pieces.1 ++ [pieces.2], [])
  | some item => (pieces.1, pieces.2 ++ [item])

/-- The pieces of a sequence with cuts: the ones that a cut ended, and the last one. -/
def cut (items : List (Option α)) : List (List α) × List α := items.foldl cutAt ([], [])

/-- An item that comes last belongs to the last piece. -/
theorem cut_item (items : List (Option α)) (item : α) :
    cut (items ++ [some item]) = ((cut items).1, (cut items).2 ++ [item]) := by
  simp [cut, cutAt]

/-- A cut that comes last ends the last piece. -/
theorem cut_mark (items : List (Option α)) :
    cut (items ++ [none]) = ((cut items).1 ++ [(cut items).2], []) := by
  simp [cut, cutAt]

/-- A sequence without cuts is one piece. -/
theorem cut_of_items {items : List (Option α)} (uncut : ∀ item ∈ items, item ≠ none) :
    (cut items).1 = [] := by
  induction items using List.reverseRecOn with
  | nil => rfl
  | append_singleton items item ih =>
    have earlier := ih (fun other member => uncut other (List.mem_append_left _ member))
    cases item with
    | none => exact absurd rfl (uncut none (by simp))
    | some value => rw [cut_item, earlier]

end Olimex2378.Framing
