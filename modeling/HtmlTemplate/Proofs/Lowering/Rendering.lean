import HtmlTemplate.Proofs.Lowering.Course

/-!
# Texts in the fragments of a tree

The fragments of a tree nest as its nodes do. What is written for a text depends on the region that the lowering comes
to the text with, and that region is made up node by node on the way down from the root.
-/

namespace HtmlTemplate

/-- The region in which the children of a node are lowered. -/
def Region.below (choices : Preservation) (node : Node) (region : Region) : Region :=
  match node.kind with
  | .element tag =>
      { preserve := region.preserve || node.preserve || choices.preserves tag, raw := Lowering.isRawText tag }
  | .customTag _ _ => { preserve := region.preserve || node.preserve }
  | .branch _ => region
  | .iteration _ _ _ => { preserve := region.preserve, raw := region.raw }
  | _ => { preserve := region.preserve }

/-- A lowering of the tree below a root comes to the node with the region. -/
inductive Tree.Enters (tree : Tree) (choices : Preservation) (root : NodeId) : NodeId → Region → Prop
  | root : tree.Enters choices root root { top := true, preserve := choices.isTotal }
  | child {parent id : NodeId} {region : Region} :
      tree.Enters choices root parent region → id ∈ tree.children parent →
      tree.Enters choices root id (region.below choices (tree.node parent))

theorem Tree.Enters.inside {tree : Tree} {choices : Preservation} {root id : NodeId} {region inner : Region}
    (enters : tree.Enters choices root id region) (below : region.below choices (tree.node id) = inner) :
    ∀ child ∈ tree.children id, tree.Enters choices root child inner :=
  fun _ member => below ▸ enters.child member

namespace Lowering

variable (tree : Tree) (shown : NodeId → List Fragment → Prop)

mutual

/-- The fragments nest as the node and the nodes below it do, and what is written for texts is as it is to be shown. -/
inductive Renders : NodeId → List Fragment → Prop
  | document {id : NodeId} {fragments : List Fragment} :
      tree.kind id = .document → RendersAll (tree.children id) fragments → Renders id fragments
  | element {id : NodeId} {tag : String} {attributes : List WrittenAttribute} {children : List Fragment} :
      tree.kind id = .element tag → RendersAll (tree.children id) children →
      Renders id [.element tag attributes children]
  | customTag {id : NodeId} {name renderer handler : String} {attributes : List WrittenAttribute}
      {body : List Fragment} :
      tree.kind id = .customTag name renderer → RendersAll (tree.children id) body →
      Renders id [.tagCall name handler attributes body]
  | text {id : NodeId} {value : String} {fragments : List Fragment} :
      tree.kind id = .text value → shown id fragments → Renders id fragments
  | placeholder {id : NodeId} {code written : String} {escape : Bool} :
      tree.kind id = .placeholder code escape → Renders id [.write written escape]
  | conditional {id : NodeId} {branches : List (Option String × List Fragment)} :
      tree.kind id = .conditional → RendersBranches (tree.children id) branches → Renders id [.branching branches]
  | iteration {id : NodeId} {item source written : String} {index : Option String} {names : LoopNames}
      {body : List Fragment} :
      tree.kind id = .iteration item index source → RendersAll (tree.children id) body →
      Renders id [.loop names.item names.index names.list written body]
  | comment {id : NodeId} {value : String} {emit : Bool} :
      tree.kind id = .comment value emit → Renders id [.comment value emit]
  | doctype {id : NodeId} {name : String} : tree.kind id = .doctype name → Renders id [.doctype name]

/-- The fragments are those of the nodes, in order. -/
inductive RendersAll : List NodeId → List Fragment → Prop
  | nil : RendersAll [] []
  | cons {id : NodeId} {ids : List NodeId} {first rest : List Fragment} :
      Renders id first → RendersAll ids rest → RendersAll (id :: ids) (first ++ rest)

/-- The tests and bodies are those of the branches, in order. -/
inductive RendersBranches : List NodeId → List (Option String × List Fragment) → Prop
  | nil : RendersBranches [] []
  | cons {id : NodeId} {ids : List NodeId} {test written : Option String} {body : List Fragment}
      {rest : List (Option String × List Fragment)} :
      tree.kind id = .branch test → RendersAll (tree.children id) body → RendersBranches ids rest →
      RendersBranches (id :: ids) ((written, body) :: rest)

end

variable {tree shown} {choices : Preservation} {root : NodeId}

mutual

/-- Texts are written as the region says that the lowering comes to them with. -/
theorem Lowers.renders
    (written : ∀ {id region value}, tree.Enters choices root id region → tree.kind id = .text value →
      shown id (textFragment region value))
    {region : Region} {id : NodeId} {before after : Scope} {fragments : List Fragment}
    (enters : tree.Enters choices root id region) :
    Lowers tree choices region id before fragments after → Renders tree shown id fragments
  | .document kind _ inside =>
      .document kind (inside.renders written
        (enters.inside (by rw [Region.below, show (tree.node id).kind = _ from kind])))
  | .element kind inside =>
      .element kind (inside.renders written
        (enters.inside (by rw [Region.below, show (tree.node id).kind = _ from kind])))
  | .customTag kind _ inside =>
      .customTag kind (inside.renders written
        (enters.inside (by rw [Region.below, show (tree.node id).kind = _ from kind])))
  | .text kind => .text kind (written enters kind)
  | .placeholder kind => .placeholder kind
  | .conditional kind inside =>
      .conditional kind (inside.renders written
        (enters.inside (by rw [Region.below, show (tree.node id).kind = _ from kind])))
  | .iteration kind _ inside =>
      .iteration kind (inside.renders written
        (enters.inside (by rw [Region.below, show (tree.node id).kind = _ from kind])))
  | .comment kind => .comment kind
  | .doctype kind => .doctype kind

theorem LowersAll.renders
    (written : ∀ {id region value}, tree.Enters choices root id region → tree.kind id = .text value →
      shown id (textFragment region value))
    {region : Region} {ids : List NodeId} {before after : Scope} {fragments : List Fragment}
    (enters : ∀ id ∈ ids, tree.Enters choices root id region) :
    LowersAll tree choices region ids before fragments after → RendersAll tree shown ids fragments
  | .nil => .nil
  | .cons first rest =>
      .cons (first.renders written (enters _ List.mem_cons_self))
        (rest.renders written fun id member => enters id (List.mem_cons_of_mem _ member))

theorem LowersBranches.renders
    (written : ∀ {id region value}, tree.Enters choices root id region → tree.kind id = .text value →
      shown id (textFragment region value))
    {region : Region} {closed : Bool} {ids : List NodeId} {before after : Scope}
    {branches : List (Option String × List Fragment)} (enters : ∀ id ∈ ids, tree.Enters choices root id region) :
    LowersBranches tree choices region closed ids before branches after → RendersBranches tree shown ids branches
  | .nil => .nil
  | .cons kind body rest =>
      .cons kind
        (body.renders written ((enters _ List.mem_cons_self).inside
          (by rw [Region.below, show (tree.node _).kind = _ from kind])))
        (rest.renders written fun id member => enters id (List.mem_cons_of_mem _ member))

end

end Lowering

/-- What a tree is lowered to renders its root, with texts written as the lowering comes to them. -/
theorem Tree.lower_renders {tree : Tree} {choices : Preservation} {root : NodeId} {fragments : List Fragment}
    {hoisted : List Declaration} {shown : NodeId → List Fragment → Prop} (wellFormed : tree.WellFormed)
    (ran : tree.lower choices root = .ok (fragments, hoisted))
    (written : ∀ {id region value}, tree.Enters choices root id region → tree.kind id = .text value →
      shown id (Lowering.textFragment region value)) : Lowering.Renders tree shown root fragments := by
  obtain ⟨after, lowers, -⟩ := Lowering.lowers_of_lower wellFormed ran
  exact lowers.renders written .root

end HtmlTemplate
