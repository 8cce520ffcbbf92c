import TemplateDump.Proofs.Node.Reading
import TemplateDump.Proofs.Tree.Lines
import TemplateDump.Proofs.Tree.Outline

/-!
# Reading a dump

A dump of readable nodes can be read back: its line feeds cut it into lines, each line says its
depth and what it shows of a node (`map_shown_of_map_lineChars`), and the depths put the nodes
together (`Outline.listingAll_inj`).  So `dump_eq_iff_outline_eq` says that two trees have the same
dump exactly if they have the same outline.
-/

namespace TemplateDump

/-! ## Lines -/

/-- The line of a listed node. -/
def Shown.listedChars (listed : Nat × Node) : List Char :=
  listed.2.shown.lineChars listed.1

theorem Setup.writeLine_plain {node : Node} (h : node.payload.nodeClass.isStandard = true)
    (depth : Nat) :
    plain.writeLine depth node = .ofChars (Shown.listedChars (depth, node) ++ ['\n']) := by
  rw [writeLine, writeNode_plain h, Output.append_of_success rfl]
  rfl

/-- The listed nodes are known, one by one, from their lines. -/
theorem map_shown_of_map_lineChars {first second : List (Nat × Node)}
    (hfirst : ∀ p ∈ first, p.2.IsReadable) (hsecond : ∀ p ∈ second, p.2.IsReadable)
    (h : first.map Shown.listedChars = second.map Shown.listedChars) :
    first.map (fun p => (p.1, p.2.shown)) = second.map (fun p => (p.1, p.2.shown)) := by
  induction first generalizing second with
  | nil =>
    cases second with
    | nil => rfl
    | cons q rest => exact absurd h (by simp)
  | cons p rest ih =>
    cases second with
    | nil => exact absurd h (by simp)
    | cons q rest' =>
      obtain ⟨hp, hrest⟩ := List.forall_mem_cons.1 hfirst
      obtain ⟨hq, hrest'⟩ := List.forall_mem_cons.1 hsecond
      obtain ⟨hline, hlines⟩ := List.cons.inj h
      obtain ⟨hdepth, hshown⟩ := lineChars_inj hp hq hline
      rw [List.map_cons, List.map_cons, ih hrest hrest' hlines, hdepth, hshown]

/-! ## Dumps -/

namespace Tree

theorem dump_plain_of_isStandard {tree : Tree} {depth : Nat}
    (h : ∀ p ∈ tree.listing depth, p.2.payload.nodeClass.isStandard = true) :
    tree.dump .plain depth =
      .ofChars (((tree.listing depth).map Shown.listedChars).flatMap (· ++ ['\n'])) := by
  rw [dump_eq_concat_listing, List.flatMap_map, ← Output.concat_map_ofChars]
  refine congrArg Output.concat (List.map_congr_left fun p hp => ?_)
  exact Setup.writeLine_plain (h p hp) p.1

/-- **A dump shows the outline of a tree, no more and no less.**  Two trees of readable nodes are
both dumped to the end, and to the same text exactly if they have the same outline. -/
theorem dump_eq_iff_outline_eq {first second : Tree}
    (hfirst : ∀ p ∈ first.listing 0, p.2.IsReadable)
    (hsecond : ∀ p ∈ second.listing 0, p.2.IsReadable) :
    (first.dump .plain 0).succeeded = true ∧ (second.dump .plain 0).succeeded = true ∧
      ((first.dump .plain 0).text = (second.dump .plain 0).text ↔
        first.outline = second.outline) := by
  rw [dump_plain_of_isStandard fun p hp => (hfirst p hp).isStandard,
    dump_plain_of_isStandard fun p hp => (hsecond p hp).isStandard]
  refine ⟨rfl, rfl, ?_⟩
  constructor
  · intro h
    have hline : ∀ {tree : Tree}, (∀ p ∈ tree.listing 0, p.2.IsReadable) →
        ∀ line ∈ (tree.listing 0).map Shown.listedChars, '\n' ∉ line := by
      intro tree htree line hmem
      obtain ⟨p, hp, rfl⟩ := List.mem_map.1 hmem
      exact (htree p hp).lineFeed_not_mem_lineChars p.1
    have hchars := String.ofList_injective h
    have hlines := Text.lines_inj (hline hfirst) (hline hsecond) hchars
    exact map_shown_listing_inj.1 (map_shown_of_map_lineChars hfirst hsecond hlines)
  · intro h
    have hshown := congrArg (List.map fun p : Nat × Shown => p.2.lineChars p.1)
      (map_shown_listing_inj.2 h : (first.listing 0).map _ = (second.listing 0).map _)
    rw [List.map_map, List.map_map] at hshown
    exact congrArg (fun lines => (Output.ofChars (lines.flatMap (· ++ ['\n']))).text) hshown

/-- A gap and a directory do not show. -/
theorem dump_eq_of_gap_and_directory :
    let quote : Payload Token := .construct (.token ⟨.html, "a - b\n"⟩)
    let ref : Head := ⟨.extension (.component (.ref none none)), none, []⟩
    let first : Tree := node ref [absent, node ⟨quote, some { file := "views/page" }, []⟩ []]
    let second : Tree := node ref [node ⟨quote, some { file := "page" }, []⟩ []]
    (∀ p ∈ first.listing 0, p.2.IsReadable) ∧ (∀ p ∈ second.listing 0, p.2.IsReadable) ∧
      (first.dump .plain 0).text = (second.dump .plain 0).text := by
  intro quote ref first second
  have hfirst : ∀ p ∈ first.listing 0, p.2.IsReadable := by decide +kernel
  have hsecond : ∀ p ∈ second.listing 0, p.2.IsReadable := by decide +kernel
  exact ⟨hfirst, hsecond, (dump_eq_iff_outline_eq hfirst hsecond).2.2.2 rfl⟩

end Tree

end TemplateDump
