import HtmlTemplate.Proofs.Naming.Hygiene
import HtmlTemplate.Proofs.Script.Embedding
import HtmlTemplate.Proofs.Text.Bytes
import HtmlTemplate.Proofs.Tree.Contents

/-!
# Words of the language as names of loops

The variables of a loop are checked for their characters only, and the module declares them as they come out of the
scope. All of them are names that code can bind and refer to, unless a loop is given one of the words that the language
keeps for itself: such a word passes the check, and no number is put behind it, since nothing else in a module is called
like one. The names that are made up, those with numbers and those of handlers have an underscore, which no word has.
-/

namespace HtmlTemplate

/-! ## Names that code can bind -/

namespace Script

/-- Words that the code of a module cannot bind, although code that is neither strict nor in a module may. -/
def strictWords : List String :=
  ["await", "yield", "let", "static", "implements", "interface", "package", "private", "protected", "public", "eval",
   "arguments"]

/-- The words that no variable in the code of a module can be called. -/
def keptWords : List String :=
  reservedWords ++ strictWords

/-- A name that the code of a module can bind. -/
structure IsBinding (name : String) : Prop where
  spelled : ∃ first rest, name.toList = first :: rest ∧ isNameStart first = true ∧ ∀ c ∈ rest, isNamePart c = true
  free : name ∉ keptWords

/-- A variable that can be declared, and is read as itself where it is referred to. -/
structure IsUsable (name : String) : Prop where
  binding : IsBinding name
  reference : parse? name.toList = some { tree := .node (.reference name) 0 name.length [], rest := [] }

/-- No word has an underscore. -/
theorem notMem_keptWords {name : String} (underscore : '_' ∈ name.toList) : name ∉ keptWords := by
  have plain : ∀ word ∈ keptWords, '_' ∉ word.toList := by decide
  exact fun kept => plain name kept underscore

/-! ## Reading a name -/

variable {name : String} {text : List Char}

theorem ascii_of_isIdentifierPart {c : Char} (part : Name.isIdentifierPart c = true) : c.toNat < 128 := by
  unfold Name.isIdentifierPart at part
  rw [Bool.or_eq_true, Bool.or_eq_true] at part
  rcases part with (plain | underscore) | dollar
  · exact Text.ascii_of_isAlphanum plain
  · rw [beq_iff_eq.1 underscore]
    decide
  · rw [beq_iff_eq.1 dollar]
    decide

theorem isNamePart_of_isIdentifierPart {c : Char} (part : Name.isIdentifierPart c = true) : isNamePart c = true := by
  have each : ∀ n < 128, Name.isIdentifierPart (Char.ofNat n) = true → isNamePart (Char.ofNat n) = true := by
    decide
  exact Text.forall_ascii (motive := fun c => Name.isIdentifierPart c = true → isNamePart c = true) each
    (ascii_of_isIdentifierPart part) part

/-- What a first character of an identifier is to the reader of tokens. -/
structure StartsName (c : Char) : Prop where
  start : isNameStart c = true
  part : isNamePart c = true
  apart : c ∉ ['"', '\'', '\x60', '#', '/', '.']
  digit : c.isDigit = false
  lineBreak : isLineBreak c = false
  gap : isGap c = false

theorem startsName_of_isIdentifierStart {c : Char} (starts : Name.isIdentifierStart c = true) : StartsName c := by
  have each : ∀ n < 128, Name.isIdentifierStart (Char.ofNat n) = true →
      isNameStart (Char.ofNat n) = true ∧ isNamePart (Char.ofNat n) = true ∧
        Char.ofNat n ∉ ['"', '\'', '\x60', '#', '/', '.'] ∧ (Char.ofNat n).isDigit = false ∧
          isLineBreak (Char.ofNat n) = false ∧ isGap (Char.ofNat n) = false := by
    decide
  have part : Name.isIdentifierPart c = true := by
    unfold Name.isIdentifierStart at starts
    unfold Name.isIdentifierPart Char.isAlphanum
    rw [Bool.or_assoc] at starts ⊢
    rcases Bool.or_eq_true_iff.1 starts with alpha | sign
    · simp [alpha]
    · simp [sign]
  obtain ⟨start, part, apart, digit, lineBreak, gap⟩ := Text.forall_ascii
    (motive := fun c => Name.isIdentifierStart c = true → isNameStart c = true ∧ isNamePart c = true ∧
      c ∉ ['"', '\'', '\x60', '#', '/', '.'] ∧ c.isDigit = false ∧ isLineBreak c = false ∧ isGap c = false)
    each (ascii_of_isIdentifierPart part) starts
  exact ⟨start, part, apart, digit, lineBreak, gap⟩

theorem nameTail_of_all (parts : ∀ c ∈ text, isNamePart c = true) {budget : Nat} (enough : text.length ≤ budget) :
    nameTail budget text = some (text, false, []) := by
  induction text generalizing budget with
  | nil => cases budget <;> rfl
  | cons c text hypothesis =>
      obtain ⟨part, others⟩ := List.forall_mem_cons.1 parts
      have plain : c ≠ '\\' := by
        rintro rfl
        exact absurd part (by decide)
      cases budget with
      | zero => cases enough
      | succ budget =>
          unfold nameTail
          split
          · next none => cases none
          · next same => exact absurd (List.cons.inj same).1 plain
          · next same => exact absurd (List.cons.inj same).1 plain
          · next counted same =>
              obtain rfl := Nat.succ.inj counted
              obtain ⟨rfl, rfl⟩ := List.cons.inj same
              rw [if_pos part, hypothesis others (Nat.le_of_succ_le_succ enough)]
              rfl
          · next same => cases same

theorem exists_of_isIdentifier (identifier : Name.isIdentifier name = true) :
    ∃ first rest, name.toList = first :: rest ∧ StartsName first ∧ ∀ c ∈ rest, isNamePart c = true := by
  unfold Name.isIdentifier at identifier
  split at identifier
  · cases identifier
  · next first rest same =>
      obtain ⟨starts, parts⟩ := Bool.and_eq_true_iff.1 identifier
      exact ⟨first, rest, same, startsName_of_isIdentifierStart starts, fun c member =>
        isNamePart_of_isIdentifierPart (List.all_eq_true.1 parts c member)⟩

theorem token?_of_isIdentifier (identifier : Name.isIdentifier name = true) :
    token? name.toList = some (.name name false, []) := by
  obtain ⟨first, rest, same, starts, parts⟩ := exists_of_isIdentifier identifier
  have whole : name? (first :: rest) = some (first :: rest, false, []) := by
    unfold name?
    rw [nameTail_of_all (List.forall_mem_cons.2 ⟨starts.part, parts⟩) (Nat.le_refl _)]
    exact if_pos starts.start
  have apart := starts.apart
  simp only [List.mem_cons, List.not_mem_nil, or_false, not_or] at apart
  obtain ⟨quote, apostrophe, backquote, sharp, -, point⟩ := apart
  have number : ¬(first.isDigit || (first == '.' && (rest.take 1).any Char.isDigit)) = true := by
    simp [starts.digit, point]
  have named : (isNameStart first || first == '\\') = true := by rw [starts.start, Bool.true_or]
  rw [same]
  unfold token?
  split
  · next impossible => cases impossible
  · next equal => exact absurd (List.cons.inj equal).1 quote
  · next equal => exact absurd (List.cons.inj equal).1 apostrophe
  · next equal => exact absurd (List.cons.inj equal).1 backquote
  · next equal => exact absurd (List.cons.inj equal).1 sharp
  · next equal =>
      obtain ⟨rfl, rfl⟩ := List.cons.inj equal
      rw [if_neg number, if_pos named, whole, ← same, Option.map_some]
      dsimp only
      rw [String.ofList_toList]

theorem skipGap_of_isIdentifier (identifier : Name.isIdentifier name = true) :
    skipGap .between false name.toList = some (false, name.toList) := by
  obtain ⟨first, rest, same, starts, -⟩ := exists_of_isIdentifier identifier
  have slash : first ≠ '/' := fun equal => starts.apart (by simp [equal])
  rw [same]
  unfold skipGap
  split
  · next equal => exact absurd (List.cons.inj equal).1 slash
  · next equal => exact absurd (List.cons.inj equal).1 slash
  · next between _ => cases between
  · next between _ => cases between
  · next equal _ => cases equal
  · next equal =>
      obtain ⟨rfl, rfl⟩ := List.cons.inj equal
      rw [starts.lineBreak, starts.gap]
      rfl
  · next between _ => cases between
  · next between _ => cases between

/-- An identifier that is no word is read to its end as a reference, whatever else it is. -/
theorem parse?_of_isIdentifier (identifier : Name.isIdentifier name = true) (free : name ∉ keptWords) :
    parse? name.toList = some { tree := .node (.reference name) 0 name.length [], rest := [] } := by
  -- The word for functions that wait is no kept word, but it is looked at more closely than others.
  by_cases special : name = "async"
  · subst special
    have letters : "async".toList = ['a', 's', 'y', 'n', 'c'] := String.toList_ofList
    have length : "async".length = 5 := by decide
    rw [letters, length]
    rfl
  have isFree : isFreeWord name = true := by
    unfold isFreeWord
    rw [Bool.not_eq_true', ← Bool.not_eq_true, List.contains_iff_mem]
    exact fun reserved => free (List.mem_append_left _ reserved)
  have bare : (Token.name name false).isBare = true := by
    have operators : ∀ word ∈ ["await", "yield", "typeof", "void", "delete"], word ∈ keptWords := by decide
    unfold Token.isBare
    rw [Bool.not_eq_true', ← Bool.not_eq_true, List.contains_iff_mem]
    exact fun member => (List.mem_cons.1 member).elim special fun other => free (operators name other)
  obtain ⟨level, enough⟩ : ∃ level, levelFor name.toList.length = level + 4 :=
    ⟨levelFor name.toList.length - 4, by unfold levelFor; omega⟩
  let c : Cursor := { Cursor.before name.toList with token := .name name false, rest := [] }
  have begins : (Cursor.before name.toList).next? = some c := by
    rw [next_token (skipGap_of_isIdentifier identifier) (token?_of_isIdentifier identifier)]
    simp [c, Cursor.before, Cursor.stop]
  have ends : c.next? = some c.atEnd := next_atEnd rfl
  have call : callRule (grammar (level + 1)) moduleSetting c =
      some (.node (.reference name) c.start c.atEnd.lastStop [], c.atEnd) :=
    call_of_member (member_of_primary (primary_word isFree bare rfl ends) (.inl rfl)) rfl
  have start : c.start = 0 := Nat.sub_self _
  have stop : c.atEnd.lastStop = name.length := String.length_toList
  rw [start, stop] at call
  refine parse_eq_some.2 ⟨c, c.atEnd, begins, ?_, rfl, rfl, rfl⟩
  rw [enough]
  unfold sequenceOf
  rw [Read.start_bind, Read.bind_apply, assignment_of_call bare call rfl, Option.bind_some]
  rfl

/-- An identifier is a variable that can be used if and only if it is no word. -/
theorem isUsable_iff (identifier : Name.isIdentifier name = true) : IsUsable name ↔ name ∉ keptWords := by
  refine ⟨fun usable => usable.binding.free, fun free => ⟨⟨?_, free⟩, parse?_of_isIdentifier identifier free⟩⟩
  obtain ⟨first, rest, same, starts, parts⟩ := exists_of_isIdentifier identifier
  exact ⟨first, rest, same, starts.start, parts⟩

end Script

/-! ## Names that a scope gives out -/

open Script (keptWords notMem_keptWords IsUsable isUsable_iff)

namespace Scope

variable {before after : Scope} {name identifier : String}

theorem notMem_keptWords_numbered (name : String) (n : Nat) : numbered name n ∉ keptWords :=
  notMem_keptWords (by simp [numbered])

/-- No word is in force: no frame has one for a name or writes one for a name, and the declarations of the module are
called as handlers are. -/
structure Wordless (scope : Scope) : Prop where
  frames : ∀ frame ∈ scope.frames, ∀ key identifier, frame.find? key = some identifier →
    key ∉ keptWords ∧ identifier ∉ keptWords
  hoisted : ∀ declaration ∈ scope.hoisted, Name.IsHandler declaration.name

theorem wordless_empty : ({} : Scope).Wordless where
  frames frame member key identifier found := by
    obtain rfl := List.mem_singleton.1 member
    cases found
  hoisted _ none := absurd none List.not_mem_nil

namespace Wordless

theorem notMem_takenNames (wordless : before.Wordless) (word : name ∈ keptWords) : name ∉ before.takenNames := by
  have unreserved : ∀ word ∈ keptWords, word ∉ reservedNames := by decide
  intro taken
  rcases mem_takenNames.1 taken with reserved | ⟨declaration, member, rfl⟩ |
    ⟨frame, member, key, identifier, found, rfl | rfl⟩
  · exact unreserved name word reserved
  · exact notMem_keptWords (wordless.hoisted declaration member).2 word
  · exact (wordless.frames frame member key identifier found).1 word
  · exact (wordless.frames frame member key identifier found).2 word

theorem push (wordless : before.Wordless) : before.push.Wordless where
  frames frame member key identifier found := by
    rcases List.mem_cons.1 member with rfl | outer
    · cases found
    · exact wordless.frames frame outer key identifier found
  hoisted := wordless.hoisted

/-- A word is declared as it is, and nothing else is declared as a word. -/
theorem declare_iff (wordless : before.Wordless) (declares : before.declare name = (identifier, after)) :
    identifier ∈ keptWords ↔ name ∈ keptWords := by
  obtain ⟨rfl, -⟩ := Prod.mk.inj declares
  constructor
  · intro word
    rcases unique_eq before.takenNames name with same | ⟨n, counted⟩
    · rwa [same] at word
    · rw [counted] at word
      exact absurd word (notMem_keptWords_numbered name n)
  · intro word
    have free : ¬before.takenNames.contains name = true :=
      fun taken => wordless.notMem_takenNames word (List.contains_iff_mem.1 taken)
    rwa [unique, if_neg free]

theorem declare (wordless : before.Wordless) (declares : before.declare name = (identifier, after))
    (free : name ∉ keptWords) : after.Wordless where
  frames frame member key written found := by
    rcases List.mem_cons.1 member with rfl | outer
    · rw [declare_inner declares, SortedMap.find?_insert] at found
      split at found
      · next same =>
        obtain rfl := Option.some.inj found
        exact ⟨same ▸ free, mt (wordless.declare_iff declares).1 free⟩
      · exact wordless.frames _ List.mem_cons_self key written found
    · rw [declare_outer declares] at outer
      exact wordless.frames frame (List.mem_cons_of_mem _ outer) key written found
  hoisted := by
    rw [declare_hoisted declares]
    exact wordless.hoisted

/-- Operations that give the frames back bring no word into force. -/
theorem operates {named : List Answer → Prop} (wordless : before.Wordless) (keeps : before.Keeps after)
    (operates : Lowering.Operates before after named) : after.Wordless where
  frames := by
    rw [Scope.frames, keeps.inner, keeps.outer]
    exact wordless.frames
  hoisted := by
    obtain ⟨steps, handlers, rfl, -⟩ := operates
    exact forall_hoisted_run Name.IsHandler (fun _ n handler => handler.numbered n) handlers wordless.hoisted

end Wordless

theorem isIdentifier_declare (declares : before.declare name = (identifier, after))
    (valid : Name.isIdentifier name = true) : Name.isIdentifier identifier = true := by
  obtain ⟨rfl, -⟩ := Prod.mk.inj declares
  rcases unique_eq before.takenNames name with same | ⟨n, counted⟩
  · rwa [same]
  · rw [counted]
    exact Name.isIdentifier_numbered valid n

/-! ### Loops -/

/-- The loop is given no word for a variable. -/
def WordlessNames (item : String) (index : Option String) : Prop :=
  item ∉ keptWords ∧ ∀ name ∈ index, name ∉ keptWords

variable {item : String} {index : Option String} {names : LoopNames}

theorem wordlessNames_iff :
    WordlessNames item index ↔ item ∉ keptWords ∧ index.getD (item ++ "_index") ∉ keptWords := by
  have made : item ++ "_index" ∉ keptWords := notMem_keptWords (by simp)
  cases index <;> simp [WordlessNames, made]

theorem Wordless.openLoop (wordless : before.Wordless) (opens : before.openLoop item index = (names, after))
    (free : WordlessNames item index) : after.Wordless := by
  obtain ⟨first, second, ofItem, ofIndex, ofList⟩ := openLoop_eq_iff.1 opens
  obtain ⟨itemFree, indexFree⟩ := wordlessNames_iff.1 free
  have listFree : item ++ "_list" ∉ keptWords := notMem_keptWords (by simp)
  exact ((wordless.push.declare ofItem itemFree).declare ofIndex indexFree).declare ofList listFree

/-- The variables of a loop can be used if and only if it is given no word for one. -/
theorem Wordless.openLoop_iff (wordless : before.Wordless) (opens : before.openLoop item index = (names, after))
    (itemValid : Name.isIdentifier item = true) (indexValid : ∀ name ∈ index, Name.isIdentifier name = true) :
    (∀ name ∈ names.all, IsUsable name) ↔ WordlessNames item index := by
  obtain ⟨first, second, ofItem, ofIndex, ofList⟩ := openLoop_eq_iff.1 opens
  have valid : Name.isIdentifier (index.getD (item ++ "_index")) = true := by
    cases index with
    | none => exact Name.isIdentifier_append itemValid (by decide)
    | some name => exact indexValid name rfl
  have usableItem := isUsable_iff (isIdentifier_declare ofItem itemValid)
  have usableIndex := isUsable_iff (isIdentifier_declare ofIndex valid)
  have usableList := isUsable_iff (isIdentifier_declare ofList (Name.isIdentifier_append itemValid (by decide)))
  have itemWord := not_congr (wordless.push.declare_iff ofItem)
  simp only [LoopNames.all, List.forall_mem_cons, List.not_mem_nil, false_imp_iff, implies_true, and_true,
    usableItem, usableIndex, usableList, wordlessNames_iff]
  constructor
  · rintro ⟨-, indexFree, itemFree⟩
    have free := itemWord.1 itemFree
    exact ⟨free, (not_congr ((wordless.push.declare ofItem free).declare_iff ofIndex)).1 indexFree⟩
  · rintro ⟨itemFree, indexFree⟩
    have opened := wordless.push.declare ofItem itemFree
    have listFree : item ++ "_list" ∉ keptWords := notMem_keptWords (by simp)
    exact ⟨(not_congr ((opened.declare ofIndex indexFree).declare_iff ofList)).2 listFree,
      (not_congr (opened.declare_iff ofIndex)).2 indexFree, itemWord.2 itemFree⟩

end Scope

/-! ## Loops of a tree -/

/-- No loop at the node or below it is given a word for a variable. -/
def Tree.WordlessBelow (tree : Tree) (id : NodeId) : Prop :=
  ∀ below item index source, tree.OnPath id below → tree.kind below = .iteration item index source →
    Scope.WordlessNames item index

namespace Tree.WellFormed

variable {tree : Tree} {id : NodeId}

theorem wordlessBelow_iff (wellFormed : tree.WellFormed) : tree.WordlessBelow id ↔
    (∀ item index source, tree.kind id = .iteration item index source → Scope.WordlessNames item index) ∧
      ∀ child ∈ tree.children id, tree.WordlessBelow child := by
  constructor
  · intro wordless
    refine ⟨fun item index source => wordless id item index source .self, ?_⟩
    intro child member below item index source onPath
    have linked := (wellFormed.linked id child).1 member
    exact wordless below item index source (onPath_iff_below.2 (.inr ⟨child, linked, onPath⟩))
  · rintro ⟨own, others⟩ below item index source onPath kind
    rcases onPath_iff_below.1 onPath with rfl | ⟨child, linked, inside⟩
    · exact own item index source kind
    · exact others child ((wellFormed.linked id child).2 linked) below item index source inside kind

theorem wordlessBelow_iff_loop (wellFormed : tree.WellFormed) {item source : String} {index : Option String}
    (kind : tree.kind id = .iteration item index source) : tree.WordlessBelow id ↔
      Scope.WordlessNames item index ∧ ∀ child ∈ tree.children id, tree.WordlessBelow child := by
  refine wellFormed.wordlessBelow_iff.trans (and_congr_left' ⟨fun all => all item index source kind, ?_⟩)
  intro free other counter code same
  obtain ⟨rfl, rfl, -⟩ := Kind.iteration.inj (kind.symm.trans same)
  exact free

/-- For a node that is no loop only its children matter. -/
theorem wordlessBelow_iff_children (wellFormed : tree.WellFormed)
    (other : ∀ item index source, tree.kind id ≠ .iteration item index source) :
    tree.WordlessBelow id ↔ ∀ child ∈ tree.children id, tree.WordlessBelow child :=
  wellFormed.wordlessBelow_iff.trans
    (and_iff_right fun item index source kind => absurd kind (other item index source))

theorem wordlessBelow_leaf (wellFormed : tree.WellFormed) (leaf : (tree.kind id).isContainer = false)
    (other : ∀ item index source, tree.kind id ≠ .iteration item index source) : tree.WordlessBelow id := by
  refine (wellFormed.wordlessBelow_iff_children other).2 fun child member => ?_
  have container := wellFormed.contained id (List.ne_nil_of_mem member)
  rw [leaf] at container
  cases container

end Tree.WellFormed

namespace Fragment

/-- A loop has variables that can be used. -/
def IsUsable : Fragment → Prop
  | loop item index list _ _ => ∀ name ∈ LoopNames.all ⟨item, index, list⟩, Script.IsUsable name
  | _ => True

end Fragment

namespace Lowering

open Fragment (IsUsable Throughout throughout_append_iff throughout_singleton throughout_singleton_iff throughout_nil)

variable {tree : Tree} {choices : Preservation}

mutual

/-- While no word is in force, the loops of a node have variables that can be used if and only if no loop at the node or
below it is given a word. -/
theorem Lowers.usable_iff (wellFormed : tree.WellFormed) (sound : ∀ id, (tree.kind id).Sound) {region : Region}
    {id : NodeId} {before after : Scope} {fragments : List Fragment} (wordless : before.Wordless) :
    Lowers tree choices region id before fragments after →
      (Throughout IsUsable fragments ↔ tree.WordlessBelow id)
  | .document kind _ inside => by
      rw [wellFormed.wordlessBelow_iff_children (by simp [kind])]
      exact inside.usable_iff wellFormed sound wordless
  | .element kind inside => by
      rw [wellFormed.wordlessBelow_iff_children (by simp [kind]), ← inside.usable_iff wellFormed sound wordless,
        throughout_singleton_iff]
      exact ⟨fun ⟨_, inner⟩ => inner _ .element, fun inner => ⟨trivial, fun | _, .element => inner⟩⟩
  | .customTag kind hoists inside => by
      have handled := wordless.operates (Scope.keeps_hoist hoists) (operates_hoist hoists)
      rw [wellFormed.wordlessBelow_iff_children (by simp [kind]), ← inside.usable_iff wellFormed sound handled,
        throughout_singleton_iff]
      exact ⟨fun ⟨_, inner⟩ => inner _ .tagCall, fun inner => ⟨trivial, fun | _, .tagCall => inner⟩⟩
  | .text kind => iff_of_true (throughout_textFragment (fun _ _ => trivial) _ _)
      (wellFormed.wordlessBelow_leaf (by rw [kind]; rfl) (by simp [kind]))
  | .placeholder kind => iff_of_true (throughout_singleton trivial fun _ body => nomatch body)
      (wellFormed.wordlessBelow_leaf (by rw [kind]; rfl) (by simp [kind]))
  | .conditional kind inside => by
      rw [wellFormed.wordlessBelow_iff_children (by simp [kind]), ← inside.usable_iff wellFormed sound wordless,
        throughout_singleton_iff]
      exact ⟨fun ⟨_, inner⟩ branch among => inner _ (.branch among),
        fun inner => ⟨trivial, fun | _, .branch among => inner _ among⟩⟩
  | .iteration kind opens inside => by
      have valid := sound id
      rw [kind] at valid
      obtain ⟨itemValid, indexValid, -⟩ := valid
      rw [wellFormed.wordlessBelow_iff_loop kind, ← wordless.openLoop_iff opens itemValid indexValid,
        throughout_singleton_iff]
      refine and_congr_right fun usable => ?_
      have opened := wordless.openLoop opens ((wordless.openLoop_iff opens itemValid indexValid).1 usable)
      rw [← inside.usable_iff wellFormed sound opened]
      exact ⟨fun inner => inner _ .loop, fun inner => fun | _, .loop => inner⟩
  | .comment kind => iff_of_true (throughout_singleton trivial fun _ body => nomatch body)
      (wellFormed.wordlessBelow_leaf (by rw [kind]; rfl) (by simp [kind]))
  | .doctype kind => iff_of_true (throughout_singleton trivial fun _ body => nomatch body)
      (wellFormed.wordlessBelow_leaf (by rw [kind]; rfl) (by simp [kind]))

theorem LowersAll.usable_iff (wellFormed : tree.WellFormed) (sound : ∀ id, (tree.kind id).Sound) {region : Region}
    {ids : List NodeId} {before after : Scope} {fragments : List Fragment} (wordless : before.Wordless) :
    LowersAll tree choices region ids before fragments after →
      (Throughout IsUsable fragments ↔ ∀ id ∈ ids, tree.WordlessBelow id)
  | .nil => iff_of_true (throughout_nil IsUsable) fun _ none => absurd none List.not_mem_nil
  | .cons first rest => by
      rw [throughout_append_iff, List.forall_mem_cons, first.usable_iff wellFormed sound wordless,
        rest.usable_iff wellFormed sound (wordless.operates first.keeps first.operates)]

theorem LowersBranches.usable_iff (wellFormed : tree.WellFormed) (sound : ∀ id, (tree.kind id).Sound) {region : Region}
    {closed : Bool} {ids : List NodeId} {before after : Scope} {branches : List (Option String × List Fragment)}
    (wordless : before.Wordless) :
    LowersBranches tree choices region closed ids before branches after →
      ((∀ branch ∈ branches, Throughout IsUsable branch.2) ↔ ∀ id ∈ ids, tree.WordlessBelow id)
  | .nil => iff_of_true (fun _ none => absurd none List.not_mem_nil) fun _ none => absurd none List.not_mem_nil
  | .cons kind body rest => by
      rw [List.forall_mem_cons, List.forall_mem_cons, body.usable_iff wellFormed sound wordless,
        wellFormed.wordlessBelow_iff_children (by simp [kind]),
        rest.usable_iff wellFormed sound (wordless.operates body.keeps body.operates)]

end

end Lowering

namespace CodeModule

/-- Whatever loops stand in each other, all variables that a module declares for them can be bound by its code and are
read as themselves where they are referred to, if and only if no loop is given a word that the language keeps. The check
of kinds lets these words pass. -/
theorem loops_usable_iff {tree : Tree} {choices : Preservation} {root : NodeId} {result : CodeModule}
    (wellFormed : tree.WellFormed) (checked : ∀ id, (tree.kind id).check = .ok ())
    (generated : CodeModule.generate tree choices root = .ok result) :
    (∀ (around : List LoopNames) (names : LoopNames) (source : String) (body : List Fragment),
      Fragment.Inside result.fragments around (.loop names.item names.index names.list source body) →
        ∀ name ∈ names.all, Script.IsUsable name) ↔
      ∀ id item index source, tree.OnPath root id → tree.kind id = .iteration item index source →
        item ∉ keptWords ∧ ∀ name ∈ index, name ∉ keptWords := by
  obtain ⟨after, lowers, -⟩ := Lowering.lowers_of_lower wellFormed (CodeModule.lower_of_generate generated)
  have usable := lowers.usable_iff wellFormed (fun id => Kind.check_eq_ok_iff.1 (checked id)) Scope.wordless_empty
  refine Iff.trans ⟨fun loops around fragment inside => ?_, fun all around names source body inside => ?_⟩ usable
  · cases fragment with
    | loop item index list source body => exact loops around ⟨item, index, list⟩ source body inside
    | _ => exact trivial
  · exact all around _ inside

/-- A loop in a loop of the same variable, with a counter that is called like a word which code may bind. -/
theorem loops_usable_iff_rows :
    let tree : Tree := { file := "page", nodes := [
      { kind := .document, children := [⟨1⟩] },
      { kind := .iteration "row" none "data.rows", children := [⟨2⟩], parent := some ⟨0⟩ },
      { kind := .iteration "row" (some "async") "row.rows", parent := some ⟨1⟩ }] }
    let names : LoopNames := ⟨"row_1", "async", "row_list_1"⟩
    tree.WellFormed ∧ (∀ id, (tree.kind id).check = .ok ()) ∧
      ∃ result source body, CodeModule.generate tree .standard ⟨0⟩ = .ok result ∧
        Fragment.Inside result.fragments [⟨"row", "row_index", "row_list"⟩]
          (.loop names.item names.index names.list source body) ∧ ∀ name ∈ names.all, Script.IsUsable name := by
  intro tree names
  have wellFormed : tree.WellFormed := Tree.Ordered.wellFormed (by decide)
  have checked : ∀ id, (tree.kind id).check = .ok () := by
    rintro ⟨id⟩
    match id with
    | 0 => rfl
    | 1 => decide +kernel
    | 2 => decide +kernel
    | id + 3 => rfl
  have wordless : ∀ id item index source, tree.OnPath ⟨0⟩ id → tree.kind id = .iteration item index source →
      item ∉ keptWords ∧ ∀ name ∈ index, name ∉ keptWords := by
    rintro ⟨id⟩ item index source - kind
    match id with
    | 0 => cases kind
    | 1 => cases kind; decide
    | 2 => cases kind; decide
    | id + 3 => cases kind
  have chain : ((CodeModule.generate tree .standard ⟨0⟩).map fun result => Fragment.soleLoops 2 result.fragments) =
      .ok [⟨"row", "row_index", "row_list"⟩, names] := by decide +kernel
  refine ⟨wellFormed, checked, ?_⟩
  cases generated : CodeModule.generate tree .standard ⟨0⟩ with
  | error fault =>
      rw [generated] at chain
      cases chain
  | ok result =>
      rw [generated] at chain
      obtain ⟨source, body, inside⟩ :=
        Fragment.inside_of_soleLoops [⟨"row", "row_index", "row_list"⟩] (Except.ok.inj chain)
      exact ⟨result, source, body, rfl, inside,
        (loops_usable_iff wellFormed checked generated).2 wordless _ names source body inside⟩

/-- A loop over classes passes the check, and the module declares a variable that code can neither bind nor refer to. -/
theorem loops_unusable_class :
    let tree : Tree := { file := "page", nodes := [
      { kind := .document, children := [⟨1⟩] },
      { kind := .iteration "class" none "data.xs", parent := some ⟨0⟩ }] }
    tree.WellFormed ∧ (∀ id, (tree.kind id).check = .ok ()) ∧
      ∃ result source body, CodeModule.generate tree .standard ⟨0⟩ = .ok result ∧
        Fragment.Inside result.fragments [] (.loop "class" "class_index" "class_list" source body) ∧
        .line "var class, class_index, class_list;" ∈ Fragment.layoutAll result.fragments ∧
        ¬Script.IsBinding "class" ∧ (Script.parse? "class".toList).isNone = true := by
  intro tree
  have checked : ∀ id, (tree.kind id).check = .ok () := by
    rintro ⟨id⟩
    match id with
    | 0 => rfl
    | 1 => decide +kernel
    | id + 2 => rfl
  refine ⟨Tree.Ordered.wellFormed (by decide), checked, ?_⟩
  have single : ((CodeModule.generate tree .standard ⟨0⟩).map fun result =>
      (Fragment.soleLoop? result.fragments).map Prod.fst) =
        .ok (some ⟨"class", "class_index", "class_list"⟩) := by decide +kernel
  cases generated : CodeModule.generate tree .standard ⟨0⟩ with
  | error fault =>
      rw [generated] at single
      cases single
  | ok result =>
      rw [generated] at single
      obtain ⟨⟨names, body⟩, found, rfl⟩ := Option.map_eq_some_iff.1 (Except.ok.inj single)
      obtain ⟨source, sole⟩ := Fragment.eq_of_soleLoop? found
      refine ⟨result, source, body, rfl, ?_, ?_, fun binding => binding.free (by decide), by decide +kernel⟩
      · rw [sole]
        exact .here List.mem_cons_self
      · rw [sole]
        exact List.mem_cons_self

end CodeModule

end HtmlTemplate
