import Mathlib.Data.List.Nodup
import PagePreview.Script.Syntax

/-!
# Places in a script

A place tells how to come to a node: which child to go to at each step from
the root.  `Node.at?` goes there, and `Node.labelAt?` says what stands there
without what is below.  The labels at all places are the whole tree
(`eq_of_labelAt?_eq`), so a change to a script is told completely by the places
whose labels it changes.

`Node.placed` lists the nodes with their places, each place once.
-/

namespace PagePreview.Script.Node

/-- The node at a place. -/
def at? (n : Node) : List Nat → Option Node
  | [] => some n
  | i :: place => n.children[i]?.bind fun c => c.at? place

/-- A node without what is below it. -/
structure Label where
  kind : Kind
  span : Span
  arity : Nat
deriving DecidableEq

def label (n : Node) : Label := ⟨n.kind, n.span, n.children.length⟩

/-- What stands at a place. -/
def labelAt? (n : Node) (place : List Nat) : Option Label := (n.at? place).map label

theorem at?_append (n : Node) (above below : List Nat) :
    n.at? (above ++ below) = (n.at? above).bind (·.at? below) := by
  induction above generalizing n with
  | nil => rfl
  | cons i above ih =>
      simp only [List.cons_append, at?]
      cases n.children[i]? with
      | none => rfl
      | some c => exact ih c

theorem at?_concat (n : Node) (above : List Nat) (i : Nat) :
    n.at? (above ++ [i]) = (n.at? above).bind (·.children[i]?) := by
  rw [at?_append]
  congr
  funext m
  simp [at?]

/-- Trees with the same labels at all places are the same tree. -/
theorem eq_of_labelAt?_eq : ∀ {m n : Node}, (∀ place, m.labelAt? place = n.labelAt? place) → m = n
  | mk k s cs, mk k' s' cs', h => by
      have hRoot : k = k' ∧ s = s' ∧ cs.length = cs'.length := by
        simpa [labelAt?, at?, label, kind, span, children] using h []
      obtain ⟨rfl, rfl, hLength⟩ := hRoot
      have hChildren : cs = cs' := by
        refine List.ext_getElem hLength fun i hLeft hRight => ?_
        have : sizeOf cs[i] < sizeOf cs := List.sizeOf_lt_of_mem (List.getElem_mem hLeft)
        refine eq_of_labelAt?_eq fun place => ?_
        simpa [labelAt?, at?, children, hLeft, hRight] using h (i :: place)
      rw [hChildren]
termination_by m => m

theorem mapAmong_eq_map (f : Node → Node) : ∀ ns : List Node, mapAmong f ns = ns.map (map f)
  | [] => rfl
  | n :: ns => by rw [mapAmong, mapAmong_eq_map f ns, List.map_cons]

/-! ## All places -/

mutual

/-- The nodes of a tree with their places, each before its children. -/
def placed : Node → List (List Nat × Node)
  | mk k s cs => ([], mk k s cs) :: placedAmong 0 cs

/-- The nodes of trees that are children from the number `i` on. -/
def placedAmong (i : Nat) : List Node → List (List Nat × Node)
  | [] => []
  | n :: ns => (placed n).map (fun p => (i :: p.1, p.2)) ++ placedAmong (i + 1) ns

end

mutual

theorem map_snd_placed : ∀ n : Node, (placed n).map Prod.snd = n.nodes
  | mk k s cs => by simp [placed, nodes, map_snd_placedAmong 0 cs]

theorem map_snd_placedAmong (i : Nat) : ∀ ns : List Node,
    (placedAmong i ns).map Prod.snd = nodesAmong ns
  | [] => rfl
  | n :: ns => by
      simp [placedAmong, nodesAmong, ← map_snd_placed n, ← map_snd_placedAmong (i + 1) ns,
        Function.comp_def]

end

/-- The places below children from the number `k` on begin with such a number. -/
theorem exists_of_mem_placedAmong {k : Nat} : ∀ {ns : List Node} {p : List Nat × Node},
    p ∈ placedAmong k ns → ∃ i below, k ≤ i ∧ p.1 = i :: below
  | [], p, h => by simp [placedAmong] at h
  | n :: ns, p, h => by
      simp only [placedAmong, List.mem_append, List.mem_map] at h
      obtain ⟨q, _, rfl⟩ | h := h
      · exact ⟨k, q.1, Nat.le_refl k, rfl⟩
      · obtain ⟨i, below, hLess, hEq⟩ := exists_of_mem_placedAmong h
        exact ⟨i, below, Nat.le_of_succ_le hLess, hEq⟩

mutual

theorem mem_placed : ∀ {n : Node} {place : List Nat} {m : Node},
    (place, m) ∈ placed n ↔ n.at? place = some m
  | mk k s cs, [], m => by
      have hBelow : ([], m) ∉ placedAmong 0 cs := fun hMem => by
        obtain ⟨i, below, _, hEq⟩ := exists_of_mem_placedAmong hMem
        simp at hEq
      simp [placed, at?, hBelow, eq_comm]
  | mk k s cs, i :: place, m => by
      simp [placed, mem_placedAmong, at?, children, Option.bind_eq_some_iff]

theorem mem_placedAmong {k : Nat} : ∀ {ns : List Node} {i : Nat} {place : List Nat} {m : Node},
    (i :: place, m) ∈ placedAmong k ns ↔
      k ≤ i ∧ ∃ c, ns[i - k]? = some c ∧ c.at? place = some m
  | [], i, place, m => by simp [placedAmong]
  | n :: ns, i, place, m => by
      have hFirst : (i :: place, m) ∈ (placed n).map (fun p => (k :: p.1, p.2)) ↔
          i = k ∧ n.at? place = some m := by
        simp [← mem_placed, and_comm, eq_comm]
      rw [placedAmong, List.mem_append, hFirst, mem_placedAmong]
      by_cases hSame : i = k
      · subst hSame
        have hBehind : ¬ i + 1 ≤ i := Nat.not_succ_le_self i
        simp only [hBehind, Nat.sub_self, List.getElem?_cons_zero, Nat.le_refl, true_and, false_and,
          or_false, Option.some.injEq, exists_eq_left']
      · constructor
        · rintro (⟨hEq, _⟩ | ⟨hLess, c, hChild, hAt⟩)
          · exact absurd hEq hSame
          · refine ⟨by omega, c, ?_, hAt⟩
            rw [show i - k = i - (k + 1) + 1 by omega, List.getElem?_cons_succ, hChild]
        · rintro ⟨hLess, c, hChild, hAt⟩
          rw [show i - k = i - (k + 1) + 1 by omega, List.getElem?_cons_succ] at hChild
          exact .inr ⟨by omega, c, hChild, hAt⟩

end

mutual

/-- No place is listed twice. -/
theorem nodup_placed : ∀ n : Node, ((placed n).map Prod.fst).Nodup
  | mk k s cs => by
      refine List.nodup_cons.mpr ⟨fun hMem => ?_, nodup_placedAmong 0 cs⟩
      obtain ⟨p, hMem, hNil⟩ := List.mem_map.mp hMem
      obtain ⟨i, below, _, hEq⟩ := exists_of_mem_placedAmong hMem
      simp [hEq] at hNil

theorem nodup_placedAmong (k : Nat) : ∀ ns : List Node,
    ((placedAmong k ns).map Prod.fst).Nodup
  | [] => List.nodup_nil
  | n :: ns => by
      have hFirst : ((placed n).map fun p => k :: p.1).Nodup := by
        have hInner := (nodup_placed n).map (f := (k :: ·)) (List.cons_injective)
        rwa [List.map_map] at hInner
      rw [placedAmong, List.map_append, List.map_map]
      refine hFirst.append (nodup_placedAmong (k + 1) ns) fun place hLeft hRight => ?_
      obtain ⟨p, _, hPlace⟩ := List.mem_map.mp hLeft
      obtain ⟨q, hMem, hEq⟩ := List.mem_map.mp hRight
      obtain ⟨i, below, hLess, hBelow⟩ := exists_of_mem_placedAmong hMem
      rw [← hPlace, hBelow, List.cons.injEq] at hEq
      omega

end

end PagePreview.Script.Node
