import TemplateDump.Proofs.Node.Shown
import TemplateDump.Proofs.Text.Pieces
import TemplateDump.Tree.Basic

/-!
# Outlines

The outline of a tree is the tree of what a dump shows of its nodes, without the gaps.  It is listed
like the tree, each node with its depth (`map_shown_listing`), and the depths are enough to find the
outline again (`listingAll_inj`): the nodes below a root are those up to the next one that is no
deeper.
-/

namespace TemplateDump

/-- What a dump shows of a tree. -/
inductive Outline where
  | node (head : Shown) (children : List Outline)

/-! ## Outlines of trees -/

namespace Tree

mutual
/-- The outline of a tree; an absent tree has none. -/
def outline : Tree → Option Outline
  | absent => none
  | node head children => some (.node head.shown (outlineAll children))

/-- The outlines of those trees that are not absent. -/
def outlineAll : List Tree → List Outline
  | [] => []
  | t :: rest => t.outline.toList ++ outlineAll rest
end

end Tree

/-! ## Listings -/

namespace Outline

mutual
/-- What is shown of the nodes, with their depths, each node before its children. -/
def listing (depth : Nat) : Outline → List (Nat × Shown)
  | node head children => (depth, head) :: listingAll (depth + 1) children

/-- The listings of several outlines, one after the other. -/
def listingAll (depth : Nat) : List Outline → List (Nat × Shown)
  | [] => []
  | o :: rest => o.listing depth ++ listingAll depth rest
end

theorem listingAll_append (depth : Nat) (first second : List Outline) :
    listingAll depth (first ++ second) = listingAll depth first ++ listingAll depth second := by
  induction first with
  | nil => rw [List.nil_append, listingAll, List.nil_append]
  | cons o rest ih => rw [List.cons_append, listingAll, listingAll, ih, List.append_assoc]

theorem listingAll_cons (depth : Nat) (head : Shown) (children rest : List Outline) :
    listingAll depth (node head children :: rest) =
      (depth, head) :: (listingAll (depth + 1) children ++ listingAll depth rest) := by
  rw [listingAll, listing, List.cons_append]

mutual
theorem le_of_mem_listing {depth : Nat} {p : Nat × Shown} :
    ∀ {outline : Outline}, p ∈ outline.listing depth → depth ≤ p.1
  | node head children, h => by
    rw [listing] at h
    rcases List.mem_cons.1 h with rfl | h
    · exact Nat.le_refl _
    · have hbelow := le_of_mem_listingAll h
      omega

theorem le_of_mem_listingAll {depth : Nat} {p : Nat × Shown} :
    ∀ {outlines : List Outline}, p ∈ listingAll depth outlines → depth ≤ p.1
  | [], h => absurd h List.not_mem_nil
  | o :: rest, h => by
    rw [listingAll] at h
    rcases List.mem_append.1 h with h | h
    · exact le_of_mem_listing h
    · exact le_of_mem_listingAll h
end

/-- A listing is empty, or it starts with a root. -/
theorem depth_of_mem_head? {depth : Nat} {outlines : List Outline} :
    ∀ p ∈ (listingAll depth outlines).head?, p.1 = depth := by
  intro p hp
  match outlines with
  | [] => exact absurd hp (by simp [listingAll])
  | node head children :: rest =>
    rw [listingAll_cons] at hp
    cases hp
    rfl

/-- Outlines are found again from their listing. -/
theorem listingAll_inj {depth : Nat} : ∀ {first second : List Outline},
    listingAll depth first = listingAll depth second → first = second
  | [], [], _ => rfl
  | [], node head children :: rest, h => by
    rw [listingAll_cons] at h
    exact absurd h (List.cons_ne_nil _ _).symm
  | node head children :: rest, [], h => by
    rw [listingAll_cons] at h
    exact absurd h (List.cons_ne_nil _ _)
  | node head children :: rest, node head' children' :: rest', h => by
    rw [listingAll_cons, listingAll_cons] at h
    obtain ⟨hhead, h⟩ := List.cons.inj h
    have hbelow : ∀ outlines : List Outline, ∀ p ∈ listingAll (depth + 1) outlines,
        decide (depth < p.1) = true := by
      intro outlines p hp
      exact decide_eq_true (le_of_mem_listingAll hp)
    have hbeside : ∀ outlines : List Outline, ∀ p ∈ (listingAll depth outlines).head?,
        decide (depth < p.1) = false := by
      intro outlines p hp
      rw [depth_of_mem_head? p hp]
      exact decide_eq_false (Nat.lt_irrefl _)
    obtain ⟨hchildren, hrest⟩ := Text.append_inj_of_border (hbelow children)
      (hbelow children') (hbeside rest) (hbeside rest') h
    rw [(Prod.mk.inj hhead).2, listingAll_inj hchildren, listingAll_inj hrest]

end Outline

/-! ## The listing of an outline -/

namespace Tree

mutual
theorem map_shown_listing (depth : Nat) : ∀ tree : Tree,
    (tree.listing depth).map (fun p => (p.1, p.2.shown)) =
      Outline.listingAll depth tree.outline.toList
  | absent => rfl
  | node head children => by
    rw [listing, List.map_cons, map_shown_listingAll (depth + 1) children]
    show _ = Outline.listingAll depth [.node head.shown (outlineAll children)]
    rw [Outline.listingAll_cons, Outline.listingAll, List.append_nil]

theorem map_shown_listingAll (depth : Nat) : ∀ trees : List Tree,
    (listingAll depth trees).map (fun p => (p.1, p.2.shown)) =
      Outline.listingAll depth (outlineAll trees)
  | [] => rfl
  | t :: rest => by
    rw [listingAll, List.map_append, map_shown_listing depth t, map_shown_listingAll depth rest,
      outlineAll, Outline.listingAll_append]
end

/-- Trees are listed alike if and only if they have the same outline. -/
theorem map_shown_listing_inj {first second : Tree} {depth : Nat} :
    (first.listing depth).map (fun p => (p.1, p.2.shown)) =
      (second.listing depth).map (fun p => (p.1, p.2.shown)) ↔
    first.outline = second.outline := by
  rw [map_shown_listing, map_shown_listing]
  constructor
  · intro h
    have houtlines := congrArg List.head? (Outline.listingAll_inj h)
    rwa [Option.head?_toList, Option.head?_toList] at houtlines
  · intro h
    rw [h]

end Tree

end TemplateDump
