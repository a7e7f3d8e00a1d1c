import HtmlTemplate.Proofs.Naming.Distinct
import HtmlTemplate.Proofs.Text.Telling

/-!
# Fragments are images of nodes

The fragments of a tree have the shape of the tree: one for each node, in the order and nesting of the nodes,
and none for blank text outside preserved and raw regions. The module declares one handler for each renderer,
in the order in which the tree first asks for them.
-/

namespace HtmlTemplate

/-! ## Regions of a tree -/

/-- What surrounds the children of a node. Scripts and styles are raw, also below the constructs that choose
and repeat their content. Elements and custom tags preserve whitespace if they are marked or chosen for it. -/
def Region.inside (choices : Preservation) (node : Node) (region : Region) : Region :=
  match node.kind with
  | .element tag =>
      { preserve := region.preserve || node.preserve || choices.preserves tag, raw := Lowering.isRawText tag }
  | .customTag name _ => { preserve := region.preserve || node.preserve || choices.preserves name }
  | .document => { preserve := region.preserve }
  | _ => { preserve := region.preserve, raw := region.raw }

/-- What surrounds the node in the tree below a root. -/
inductive Tree.Surrounds (tree : Tree) (choices : Preservation) (root : NodeId) : NodeId → Region → Prop
  | root : tree.Surrounds choices root root { preserve := choices.isTotal }
  | child {parent id : NodeId} {region : Region} :
      tree.Surrounds choices root parent region → id ∈ tree.children parent →
      tree.Surrounds choices root id (region.inside choices (tree.node parent))

/-- Nothing below the root ends a region early: no conditional stands in raw text, and no custom tag is among
the tags that are chosen to preserve whitespace. -/
structure Tree.KeepsRegions (tree : Tree) (choices : Preservation) (root : NodeId) : Prop where
  conditional : ∀ id region, tree.Surrounds choices root id region → tree.kind id = .conditional →
    region.raw = false
  customTag : ∀ id region name renderer, tree.Surrounds choices root id region →
    tree.kind id = .customTag name renderer → choices.preserves name = false

namespace Lowering

/-- The code that loads the handler of a renderer. -/
def loadCode (renderer : String) : String :=
  "loadTag(require(" ++ Text.jsonString renderer ++ "))"

/-- The renderer of a custom tag. -/
def renderer? : Kind → Option String
  | .customTag _ renderer => some renderer
  | _ => none

variable (tree : Tree) (choices : Preservation) (hoisted : List Declaration)

mutual

/-- The fragments are the image of the node, in a region and with the declarations of a module: what it says,
and below it the images of its children. -/
inductive Images : Region → NodeId → List Fragment → Prop
  | document {region : Region} {id : NodeId} {fragments : List Fragment} :
      tree.kind id = .document →
      ImagesAll (region.inside choices (tree.node id)) (tree.children id) fragments →
      Images region id fragments
  | element {region : Region} {id : NodeId} {tag : String} {attributes : List WrittenAttribute}
      {children : List Fragment} :
      tree.kind id = .element tag →
      attributes.map WrittenAttribute.name = (tree.node id).attributes.map Attribute.name →
      ImagesAll (region.inside choices (tree.node id)) (tree.children id) children →
      Images region id [.element tag attributes children]
  | customTag {region : Region} {id : NodeId} {name renderer handler : String}
      {attributes : List WrittenAttribute} {body : List Fragment} :
      tree.kind id = .customTag name renderer → { name := handler, init := loadCode renderer } ∈ hoisted →
      attributes.map WrittenAttribute.name = (tree.node id).attributes.map Attribute.name →
      ImagesAll (region.inside choices (tree.node id)) (tree.children id) body →
      Images region id [.tagCall name handler attributes body]
  | rawText {region : Region} {id : NodeId} {value : String} :
      tree.kind id = .text value → region.raw = true → Images region id [.text value false]
  | preservedText {region : Region} {id : NodeId} {value : String} :
      tree.kind id = .text value → region.raw = false → region.preserve = true →
      Images region id [.text value true]
  | text {region : Region} {id : NodeId} {value : String} {kept : List Char} :
      tree.kind id = .text value → region.raw = false → region.preserve = false →
      Text.collapse? value.toList = some kept → Images region id [.text (String.ofList kept) true]
  | blank {region : Region} {id : NodeId} {value : String} :
      tree.kind id = .text value → region.raw = false → region.preserve = false →
      Text.collapse? value.toList = none → Images region id []
  | placeholder {region : Region} {id : NodeId} {code written : String} {escape : Bool} :
      tree.kind id = .placeholder code escape → Images region id [.write written escape]
  | conditional {region : Region} {id : NodeId} {branches : List (Option String × List Fragment)} :
      tree.kind id = .conditional →
      ImagesBranches (region.inside choices (tree.node id)) (tree.children id) branches →
      Images region id [.branching branches]
  | iteration {region : Region} {id : NodeId} {item source written : String} {index : Option String}
      {names : LoopNames} {body : List Fragment} :
      tree.kind id = .iteration item index source →
      ImagesAll (region.inside choices (tree.node id)) (tree.children id) body →
      Images region id [.loop names.item names.index names.list written body]
  | comment {region : Region} {id : NodeId} {value : String} {emit : Bool} :
      tree.kind id = .comment value emit → Images region id [.comment value emit]
  | doctype {region : Region} {id : NodeId} {name : String} :
      tree.kind id = .doctype name → Images region id [.doctype name]

/-- The fragments are the images of the nodes, in order. -/
inductive ImagesAll : Region → List NodeId → List Fragment → Prop
  | nil {region : Region} : ImagesAll region [] []
  | cons {region : Region} {id : NodeId} {ids : List NodeId} {first rest : List Fragment} :
      Images region id first → ImagesAll region ids rest → ImagesAll region (id :: ids) (first ++ rest)

/-- The tests and bodies are the images of the branches, in order. -/
inductive ImagesBranches : Region → List NodeId → List (Option String × List Fragment) → Prop
  | nil {region : Region} : ImagesBranches region [] []
  | cons {region : Region} {id : NodeId} {ids : List NodeId} {test written : Option String}
      {body : List Fragment} {rest : List (Option String × List Fragment)} :
      tree.kind id = .branch test → written.isSome = test.isSome →
      ImagesAll (region.inside choices (tree.node id)) (tree.children id) body →
      ImagesBranches region ids rest → ImagesBranches region (id :: ids) ((written, body) :: rest)

end

variable {tree choices hoisted}

/-! ## Regions while lowering -/

/-- Text is written alike in both regions. -/
structure AgreeOnText (first second : Region) : Prop where
  preserve : first.preserve = second.preserve
  raw : first.raw = second.raw

theorem mem_hoisted_of_hoist {before after : Scope} {hint init handler : String}
    (hoists : before.hoist hint init = (handler, after)) : { name := handler, init } ∈ after.hoisted := by
  unfold Scope.hoist at hoists
  split at hoists
  · next declaration found =>
      obtain ⟨rfl, rfl⟩ := Prod.mk.inj hoists
      obtain rfl : declaration.init = init := by simpa using List.find?_some found
      exact List.mem_of_find?_eq_some found
  · obtain ⟨rfl, rfl⟩ := Prod.mk.inj hoists
    exact List.mem_append_right _ (List.mem_singleton.2 rfl)

theorem hoisted_pop (scope : Scope) : scope.pop.hoisted = scope.hoisted := by
  unfold Scope.pop
  split <;> rfl

theorem imagesAll_singleton {region : Region} {id : NodeId} {fragments : List Fragment}
    (images : ImagesAll tree choices hoisted region [id] fragments) :
    Images tree choices hoisted region id fragments := by
  cases images with
  | cons first rest =>
      cases rest with
      | nil => rwa [List.append_nil]

theorem images_textFragment {given region : Region} {id : NodeId} {value : String}
    (agree : AgreeOnText given region) (kind : tree.kind id = .text value) :
    Images tree choices hoisted region id (textFragment given value) := by
  unfold textFragment
  rw [agree.raw, agree.preserve]
  cases raw : region.raw with
  | true => exact .rawText kind raw
  | false =>
      cases preserve : region.preserve with
      | true => exact .preservedText kind raw preserve
      | false =>
          cases collapsed : Text.collapse? value.toList with
          | none => exact .blank kind raw preserve collapsed
          | some kept => exact .text kind raw preserve collapsed

mutual

/-- What a node is lowered to is its image, if no region around it ends early. -/
theorem Lowers.images {root : NodeId} (keepsRegions : tree.KeepsRegions choices root) {given region : Region}
    {id : NodeId} {before after : Scope} {fragments : List Fragment}
    (surrounds : tree.Surrounds choices root id region) (agree : AgreeOnText given region)
    (known : after.hoisted ⊆ hoisted) :
    Lowers tree choices given id before fragments after → Images tree choices hoisted region id fragments
  | .document kind _ inside =>
      .document kind (inside.images keepsRegions (fun _ member => .child surrounds member)
        (by rw [Region.inside, show (tree.node id).kind = _ from kind]; exact ⟨agree.preserve, rfl⟩) known)
  | .element kind inside =>
      .element kind (by rw [List.map_map]; rfl)
        (inside.images keepsRegions (fun _ member => .child surrounds member)
          (by rw [Region.inside, show (tree.node id).kind = _ from kind, ← agree.preserve]; exact ⟨rfl, rfl⟩) known)
  | .customTag kind hoists inside =>
      have unchosen := keepsRegions.customTag id region _ _ surrounds kind
      .customTag kind (known (inside.keeps.hoisted (mem_hoisted_of_hoist hoists))) (by rw [List.map_map]; rfl)
        (inside.images keepsRegions (fun _ member => .child surrounds member)
          (by
            rw [Region.inside, show (tree.node id).kind = _ from kind, ← agree.preserve]
            dsimp only
            rw [unchosen, Bool.or_false]
            exact ⟨rfl, rfl⟩) known)
  | .text kind => images_textFragment agree kind
  | .placeholder kind => .placeholder kind
  | .conditional kind inside =>
      .conditional kind (inside.images keepsRegions (fun _ member => .child surrounds member)
        (by
          rw [Region.inside, show (tree.node id).kind = _ from kind]
          exact ⟨agree.preserve, (keepsRegions.conditional id region surrounds kind).symm⟩) known)
  | .iteration kind opens inside =>
      .iteration kind (inside.images keepsRegions (fun _ member => .child surrounds member)
        (by rw [Region.inside, show (tree.node id).kind = _ from kind]; exact ⟨agree.preserve, agree.raw⟩)
        (by rwa [hoisted_pop] at known))
  | .comment kind => .comment kind
  | .doctype kind => .doctype kind

theorem LowersAll.images {root : NodeId} (keepsRegions : tree.KeepsRegions choices root) {given region : Region}
    {ids : List NodeId} {before after : Scope} {fragments : List Fragment}
    (surrounds : ∀ id ∈ ids, tree.Surrounds choices root id region) (agree : AgreeOnText given region)
    (known : after.hoisted ⊆ hoisted) :
    LowersAll tree choices given ids before fragments after → ImagesAll tree choices hoisted region ids fragments
  | .nil => .nil
  | .cons first rest =>
      .cons
        (first.images keepsRegions (surrounds _ List.mem_cons_self) agree
          (List.Subset.trans rest.keeps.hoisted known))
        (rest.images keepsRegions (fun id member => surrounds id (List.mem_cons_of_mem _ member)) agree known)

theorem LowersBranches.images {root : NodeId} (keepsRegions : tree.KeepsRegions choices root)
    {given region : Region} {closed : Bool} {ids : List NodeId} {before after : Scope}
    {branches : List (Option String × List Fragment)}
    (surrounds : ∀ id ∈ ids, tree.Surrounds choices root id region) (agree : AgreeOnText given region)
    (known : after.hoisted ⊆ hoisted) :
    LowersBranches tree choices given closed ids before branches after →
      ImagesBranches tree choices hoisted region ids branches
  | .nil => .nil
  | .cons kind body rest =>
      .cons kind Option.isSome_map
        (body.images keepsRegions (fun _ member => .child (surrounds _ List.mem_cons_self) member)
          (by rw [Region.inside, show (tree.node _).kind = _ from kind]; exact ⟨agree.preserve, agree.raw⟩)
          (List.Subset.trans rest.keeps.hoisted known))
        (rest.images keepsRegions (fun id member => surrounds id (List.mem_cons_of_mem _ member)) agree known)

end

/-! ## Declarations of handlers -/

theorem eraseDups_concat (inits : List String) (init : String) :
    (inits ++ [init]).eraseDups = if init ∈ inits then inits.eraseDups else inits.eraseDups ++ [init] := by
  rw [List.eraseDups_append]
  by_cases member : init ∈ inits <;> simp [List.removeAll, List.eraseDups_cons, member]

theorem eraseDups_map {f : String → String} (injective : Function.Injective f) (texts : List String) :
    (texts.map f).eraseDups = texts.eraseDups.map f := by
  match texts with
  | [] => rfl
  | text :: texts =>
      have shorter := List.length_filter_le (fun other => !other == text) texts
      have rest := eraseDups_map injective (texts.filter fun other => !other == text)
      rw [List.map_cons, List.eraseDups_cons, List.eraseDups_cons, List.map_cons, List.filter_map, ← rest]
      congr 4
      funext other
      simp [injective.eq_iff]
termination_by texts.length
decreasing_by simp only [List.length_cons]; omega

theorem loadCode_injective : Function.Injective loadCode := by
  intro first second equal
  exact Text.jsonString_injective
    ((String.append_right_inj _).1 ((String.append_left_inj _).1 equal))

/-- The renderers that the node and all nodes below it ask for, in the order of the tree. -/
def renderers (tree : Tree) (id : NodeId) : List String :=
  (tree.preorder id).filterMap fun below => renderer? (tree.kind below)

theorem renderers_eq (wellFormed : tree.WellFormed) (id : NodeId) :
    renderers tree id = (renderer? (tree.kind id)).toList ++ (tree.children id).flatMap (renderers tree) := by
  unfold renderers
  rw [wellFormed.preorder_eq, List.filterMap_cons, List.filterMap_flatMap]
  cases renderer? (tree.kind id) <;> rfl

/-- The values that are declared are those for the renderers seen so far, each one once. -/
def Declares (scope : Scope) (seen : List String) : Prop :=
  scope.hoisted.map Declaration.init = (seen.map loadCode).eraseDups

theorem Declares.hoist {before after : Scope} {seen : List String} {hint renderer handler : String}
    (declares : Declares before seen) (hoists : before.hoist hint (loadCode renderer) = (handler, after)) :
    Declares after (seen ++ [renderer]) := by
  have known : loadCode renderer ∈ seen.map loadCode ↔
      ∃ declaration ∈ before.hoisted, declaration.init = loadCode renderer := by
    rw [← List.mem_eraseDups, ← show _ = _ from declares, List.mem_map]
  unfold Declares
  rw [List.map_append, List.map_singleton, eraseDups_concat, ← show _ = _ from declares]
  unfold Scope.hoist at hoists
  split at hoists
  · next declaration found =>
      obtain ⟨-, rfl⟩ := Prod.mk.inj hoists
      rw [if_pos (known.2 ⟨declaration, List.mem_of_find?_eq_some found, by simpa using List.find?_some found⟩)]
  · next absent =>
      obtain ⟨-, rfl⟩ := Prod.mk.inj hoists
      rw [if_neg, List.map_append, List.map_singleton]
      rintro member
      obtain ⟨declaration, among, same⟩ := known.1 member
      exact List.find?_eq_none.1 absent declaration among (by simpa using same)

theorem Declares.openLoop {before after : Scope} {seen : List String} {item : String} {index : Option String}
    {names : LoopNames} (declares : Declares before seen) (opens : before.openLoop item index = (names, after)) :
    Declares after seen := by
  obtain ⟨first, second, ofItem, ofIndex, ofList⟩ := Scope.openLoop_eq_iff.1 opens
  unfold Declares
  rw [Scope.declare_hoisted ofList, Scope.declare_hoisted ofIndex, Scope.declare_hoisted ofItem]
  exact declares

theorem Declares.pop {scope : Scope} {seen : List String} (declares : Declares scope seen) :
    Declares scope.pop seen := by
  unfold Declares
  rw [hoisted_pop]
  exact declares

theorem Declares.leaf (wellFormed : tree.WellFormed) {scope : Scope} {seen : List String} {id : NodeId}
    (declares : Declares scope seen) (leaf : (tree.kind id).isContainer = false) :
    Declares scope (seen ++ renderers tree id) := by
  have childless : tree.children id = [] := by
    by_contra children
    rw [wellFormed.contained id children] at leaf
    cases leaf
  have unasked : renderer? (tree.kind id) = none := by
    cases kind : tree.kind id with
    | customTag name renderer =>
        rw [kind] at leaf
        cases leaf
    | _ => rfl
  rw [renderers_eq wellFormed, childless, unasked]
  simpa using declares

mutual

/-- Lowering a node declares a handler for each renderer at the node and below it that has none yet. -/
theorem Lowers.declares (wellFormed : tree.WellFormed) {region : Region} {id : NodeId} {before after : Scope}
    {fragments : List Fragment} {seen : List String} (declares : Declares before seen) :
    Lowers tree choices region id before fragments after → Declares after (seen ++ renderers tree id)
  | .document kind _ inside => by
      rw [renderers_eq wellFormed, kind]
      exact inside.declares wellFormed declares
  | .element kind inside => by
      rw [renderers_eq wellFormed, kind]
      exact inside.declares wellFormed declares
  | .customTag kind hoists inside => by
      rw [renderers_eq wellFormed, kind, ← List.append_assoc]
      exact inside.declares wellFormed (declares.hoist hoists)
  | .text kind => declares.leaf wellFormed (by rw [kind]; rfl)
  | .placeholder kind => declares.leaf wellFormed (by rw [kind]; rfl)
  | .conditional kind inside => by
      rw [renderers_eq wellFormed, kind]
      exact inside.declares wellFormed declares
  | .iteration kind opens inside => by
      rw [renderers_eq wellFormed, kind]
      exact (inside.declares wellFormed (declares.openLoop opens)).pop
  | .comment kind => declares.leaf wellFormed (by rw [kind]; rfl)
  | .doctype kind => declares.leaf wellFormed (by rw [kind]; rfl)

theorem LowersAll.declares (wellFormed : tree.WellFormed) {region : Region} {ids : List NodeId}
    {before after : Scope} {fragments : List Fragment} {seen : List String} (declares : Declares before seen) :
    LowersAll tree choices region ids before fragments after →
      Declares after (seen ++ ids.flatMap (renderers tree))
  | .nil => by rwa [List.flatMap_nil, List.append_nil]
  | .cons first rest => by
      rw [List.flatMap_cons, ← List.append_assoc]
      exact rest.declares wellFormed (first.declares wellFormed declares)

theorem LowersBranches.declares (wellFormed : tree.WellFormed) {region : Region} {closed : Bool}
    {ids : List NodeId} {before after : Scope} {branches : List (Option String × List Fragment)}
    {seen : List String} (declares : Declares before seen) :
    LowersBranches tree choices region closed ids before branches after →
      Declares after (seen ++ ids.flatMap (renderers tree))
  | .nil => by rwa [List.flatMap_nil, List.append_nil]
  | .cons kind body rest => by
      rw [List.flatMap_cons, ← List.append_assoc, renderers_eq wellFormed, kind]
      exact rest.declares wellFormed (body.declares wellFormed declares)

end

end Lowering

/-! ## Whole trees -/

end HtmlTemplate
