import HtmlTemplate.Proofs.Script.Moved
import HtmlTemplate.Proofs.Script.Scanning

/-!
# Readers side by side

A text can stand behind another beginning and be read by rules of another level. Two readers agree on it if they
read the same, with all offsets moved by the length of that beginning. While they read, a second account of the
text can be kept, which only has to know how it fares at a single token; it need not know the grammar.
-/

namespace HtmlTemplate
namespace Script

/-! ## Cursors -/

namespace Cursor

variable {c d : Cursor} {distance : Nat}

/-- The same place in a text that begins later. -/
def move (distance : Nat) (c : Cursor) : Cursor :=
  { c with size := c.size + distance, lastStop := c.lastStop + distance }

@[simp] theorem text_move : (c.move distance).text = c.text := rfl

/-- The token of the cursor stands in the text, and only the end takes no character. -/
structure Sound (c : Cursor) : Prop where
  text : c.text.length ≤ c.size
  rest : c.rest.length ≤ c.text.length
  token : c.token ≠ .finish → c.rest.length < c.text.length

/-- A token that is read anew from behind its first character. -/
theorem Sound.anew {token : Token} {part rest : List Char} (sound : c.Sound) (source : c.text.drop 1 = part ++ rest)
    (full : part ≠ []) : Sound { c with token, rest } := by
  have shorter : rest.length < c.text.length := by
    have lengths := congrArg List.length source
    rw [List.length_drop, List.length_append] at lengths
    have := List.length_pos_iff.2 full
    omega
  exact { text := sound.text, rest := Nat.le_of_lt shorter, token := fun _ => shorter }

theorem Sound.start_move (sound : c.Sound) : (c.move distance).start = c.start + distance :=
  Nat.sub_add_comm sound.text

theorem Sound.stop_move (sound : c.Sound) : (c.move distance).stop = c.stop + distance :=
  Nat.sub_add_comm (Nat.le_trans sound.rest sound.text)

theorem next_eq : c.next? = (skipGap .between false c.rest).bind fun gap => (token? gap.2).map fun found =>
    { c with text := gap.2, token := found.1, rest := found.2, broken := gap.1, lastStop := c.stop } := by
  unfold next?
  refine congrArg (Option.bind _) (funext fun gap => ?_)
  rw [Option.map_eq_bind]
  rfl

theorem Sound.next_move (sound : c.Sound) : (c.move distance).next? = c.next?.map (move distance) := by
  rw [next_eq, next_eq, sound.stop_move, Option.map_bind]
  refine congrArg _ (funext fun gap => ?_)
  rw [Function.comp, Option.map_map]
  rfl

theorem next_flawed : Cursor.next? { c with flawed := true } = c.next?.map fun d => { d with flawed := true } := by
  rw [next_eq, next_eq, Option.map_bind]
  refine congrArg _ (funext fun gap => ?_)
  rw [Function.comp, Option.map_map]
  rfl

/-- How a token is followed by the next one. -/
theorem next_spec (next : c.next? = some d) :
    skipGap .between false c.rest = some (d.broken, d.text) ∧ token? d.text = some (d.token, d.rest) := by
  rw [next_eq, Option.bind_eq_some_iff] at next
  obtain ⟨gap, skipped, next⟩ := next
  obtain ⟨found, read, same⟩ := Option.map_eq_some_iff.1 next
  cases same
  exact ⟨skipped, read⟩

theorem next_text (next : c.next? = some d) : d.text.length ≤ c.rest.length :=
  (skipGap_suffix (next_spec next).1).length_le

theorem next_size (next : c.next? = some d) : d.size = c.size := by
  rw [next_eq, Option.bind_eq_some_iff] at next
  obtain ⟨gap, -, next⟩ := next
  obtain ⟨found, -, rfl⟩ := Option.map_eq_some_iff.1 next
  rfl

theorem Sound.next (sound : c.Sound) (next : c.next? = some d) : d.Sound where
  text := next_size next ▸ Nat.le_trans (next_text next) (Nat.le_trans sound.rest sound.text)
  rest := by
    obtain ⟨part, source, -⟩ := behind_token (next_spec next).2
    rw [source]
    simp
  token := by
    intro more
    obtain ⟨part, source, spelled⟩ := behind_token (next_spec next).2
    have full : part ≠ [] := ne_nil_of_spelled more spelled
    rw [source, List.length_append]
    exact Nat.lt_add_of_pos_left (List.length_pos_iff.2 full)

/-- The cursor stands at a token that is read from there. -/
structure Lexed (c : Cursor) : Prop extends c.Sound where
  read : token? c.text = some (c.token, c.rest)

theorem Sound.lexed (sound : c.Sound) (next : c.next? = some d) : d.Lexed :=
  { sound.next next with read := (next_spec next).2 }

/-- A punctuator stands in the text as it is spelled. -/
theorem Lexed.punct {text : String} (lexed : c.Lexed) (punct : c.token = .punct text) : c.text = text.toList ++ c.rest := by
  obtain ⟨part, source, spelled⟩ := behind_token lexed.read
  rw [punct] at spelled
  rw [source, spelled.2]

end Cursor

/-! ## Accounts of a text -/

/-- Does the token leave every account of the text where it is? Braces, pieces of templates and the end do not. -/
def Token.isPlain : Token → Bool
  | .finish => false
  | .template closed _ => closed
  | .punct text => text != "\x7b" && text != "\x7d"
  | _ => true

/--
An account of a text that readers go through, whose beginning is longer by a distance on one side. Where a
cursor stands the account is at a station; braces and substitutions lead to other stations and back.
-/
structure Account where
  distance : Nat
  Station : Type
  At : Station → Cursor → Prop
  inBraces : Station → Station
  inSubstitution : Station → Station
  sound {station c} (stands : At station c) : c.Sound
  flawed {station c} (stands : At station c) : At station { c with flawed := true }
  plain {station c d} (stands : At station c) (plain : c.token.isPlain = true) (next : c.next? = some d) : At station d
  opens {station c d} (stands : At station c) (opening : c.token = .punct "\x7b") (next : c.next? = some d) :
    At (inBraces station) d
  closes {station c d} (stands : At (inBraces station) c) (closing : c.token = .punct "\x7d")
    (next : c.next? = some d) : At station d
  substitution {station c d wellFormed} (stands : At station c) (piece : c.token = .template false wellFormed)
    (next : c.next? = some d) : At (inSubstitution station) d
  /-- The brace that ends a substitution is the start of the next piece. -/
  continues {station c d closed wellFormed rest} (stands : At (inSubstitution station) c)
    (closing : c.token = .punct "\x7d") (piece : templateTail true (c.text.drop 1) = some (closed, wellFormed, rest))
    (next : Cursor.next? { c with token := .template closed wellFormed, rest } = some d) :
    At (if closed then station else inSubstitution station) d
  /-- The slash that starts a regular expression is read anew. -/
  pattern {station c d rest} (stands : At station c) (slash : c.token = .punct "/" ∨ c.token = .punct "/=")
    (read : pattern? (c.text.drop 1) = some rest)
    (next : Cursor.next? { c with token := .pattern, rest } = some d) : At station d

/-- Where readers are: at a token of the text, or at a piece of a template that stands at a station. -/
inductive Account.Place (A : Account)
  | code (station : A.Station)
  | piece (station : A.Station)

/-- The account at a place. A piece of a template leads behind the template or into a substitution of it. -/
def Account.Holds (A : Account) : A.Place → Cursor → Prop
  | .code station, c => A.At station c
  | .piece station, c => c.Sound ∧ ∃ closed wellFormed, c.token = .template closed wellFormed ∧
      ∀ d, c.next? = some d → A.At (if closed then station else A.inSubstitution station) d

theorem Account.Holds.sound {A : Account} {place : A.Place} {c : Cursor} (holds : A.Holds place c) : c.Sound := by
  cases place with
  | code station => exact A.sound holds
  | piece station => exact holds.1

theorem Account.Holds.flawed {A : Account} {place : A.Place} {c : Cursor} (holds : A.Holds place c) :
    A.Holds place { c with flawed := true } := by
  cases place with
  | code station => exact A.flawed holds
  | piece station =>
      obtain ⟨sound, closed, wellFormed, piece, leads⟩ := holds
      refine ⟨⟨sound.text, sound.rest, sound.token⟩, closed, wellFormed, piece, fun d next => ?_⟩
      rw [Cursor.next_flawed] at next
      obtain ⟨e, following, rfl⟩ := Option.map_eq_some_iff.1 next
      exact A.flawed (leads e following)

/-! ## Readers that take a token if it is there -/

namespace Read

variable {α : Type} {text : String}

theorem eatPunct_bind (f : Bool → Read α) :
    eatPunct text >>= f =
      atPunct text >>= fun there => if there then advance >>= fun _ => f true else f false := by
  rw [eatPunct, bind_assoc]
  refine congrArg _ (funext fun there => ?_)
  cases there with
  | true => exact bind_assoc _ _ _
  | false => rfl

theorem eatWord_bind (f : Bool → Read α) :
    eatWord text >>= f =
      atWord text >>= fun there => if there then advance >>= fun _ => f true else f false := by
  rw [eatWord, bind_assoc]
  refine congrArg _ (funext fun there => ?_)
  cases there with
  | true => exact bind_assoc _ _ _
  | false => rfl

theorem expectPunct_bind (f : Unit → Read α) :
    expectPunct text >>= f = eatPunct text >>= fun eaten => if eaten then f () else Alternative.failure := by
  rw [expectPunct, bind_assoc]
  refine congrArg _ (funext fun eaten => ?_)
  cases eaten with
  | true => rfl
  | false => rfl

theorem expectWord_bind (f : Unit → Read α) :
    expectWord text >>= f = eatWord text >>= fun eaten => if eaten then f () else Alternative.failure := by
  rw [expectWord, bind_assoc]
  refine congrArg _ (funext fun eaten => ?_)
  cases eaten with
  | true => rfl
  | false => rfl

end Read

/-! ## Agreement -/

variable {A : Account} {place : A.Place} {station : A.Station} {α β γ : Type} [Movable α] [Movable β] [Movable γ] {c : Cursor}

/-- The readers read the same from the cursor on, and what they read leads to a place. -/
def Alike (next : α → A.Place) (first second : Read α) (c : Cursor) : Prop :=
  second (c.move A.distance) = (first c).map (fun (value, d) => (move A.distance value, d.move A.distance)) ∧
    ∀ value d, first c = some (value, d) → A.Holds (next value) d ∧ d.text.length ≤ c.text.length

/-- The readers agree if the account is at the place, from which they lead to the next one. -/
def Agrees (place : A.Place) (next : α → A.Place) (first second : Read α) (c : Cursor) : Prop :=
  A.Holds place c → Alike next first second c

namespace Agrees

variable {next : α → A.Place} {onward : β → A.Place}

theorem pure {value value' : α} (moved : value' = move A.distance value) (stays : next value = place) :
    Agrees place next (pure value) (pure value') c := by
  intro stands
  refine ⟨by rw [moved]; rfl, fun found d same => ?_⟩
  cases same
  exact ⟨stays ▸ stands, Nat.le_refl _⟩

theorem failure : Agrees place next failure failure c :=
  fun _ => ⟨rfl, fun _ _ impossible => nomatch impossible⟩

omit [Movable β] in
theorem failed {f f' : β → Read α} : Agrees place next (Alternative.failure >>= f) (Alternative.failure >>= f') c :=
  fun _ => ⟨rfl, fun _ _ impossible => nomatch impossible⟩

theorem bind {first second : Read α} {f f' : α → Read β} (begins : Agrees place next first second c)
    (goesOn : ∀ value d, d.text.length ≤ c.text.length →
      Agrees (next value) onward (f value) (f' (move A.distance value)) d) :
    Agrees place onward (first >>= f) (second >>= f') c := by
  intro stands
  obtain ⟨same, leads⟩ := begins stands
  have opened (reader : Read α) (tail : α → Read β) (cursor : Cursor) :
      (reader >>= tail) cursor = (reader cursor).bind fun found => tail found.1 found.2 := rfl
  rw [Alike, opened, opened, same]
  cases found : first c with
  | none => exact ⟨rfl, fun _ _ impossible => nomatch impossible⟩
  | some result =>
      obtain ⟨value, d⟩ := result
      obtain ⟨stands, shorter⟩ := leads value d found
      obtain ⟨same, leads⟩ := goesOn value d shorter stands
      refine ⟨same, fun result e read => ?_⟩
      obtain ⟨stands, less⟩ := leads result e read
      exact ⟨stands, Nat.le_trans less shorter⟩

/-- A value that tells of no places, and what follows it. -/
theorem flag {first second : Read Bool} {f f' : Bool → Read α}
    (begins : Agrees place (fun _ => place) first second c)
    (goesOn : ∀ value d, d.text.length ≤ c.text.length → Agrees place next (f value) (f' value) d) :
    Agrees place next (first >>= f) (second >>= f') c :=
  begins.bind goesOn

omit [Movable β] in
theorem given {value value' : β} {f f' : β → Read α} (goesOn : Agrees place next (f value) (f' value') c) :
    Agrees place next (Pure.pure value >>= f) (Pure.pure value' >>= f') c :=
  goesOn

theorem ite {condition : Prop} [Decidable condition] {f f' g g' : Read α}
    (yes : condition → Agrees place next f f' c) (no : ¬condition → Agrees place next g g' c) :
    Agrees place next (if condition then f else g) (if condition then f' else g') c := by
  by_cases holds : condition
  · rw [if_pos holds, if_pos holds]
    exact yes holds
  · rw [if_neg holds, if_neg holds]
    exact no holds

omit [Movable β] [Movable γ] in
theorem nest {first second : Read γ} {f f' : γ → Read β} {g g' : β → Read α}
    (whole : Agrees place next (first >>= fun value => f value >>= g) (second >>= fun value => f' value >>= g') c) :
    Agrees place next ((first >>= f) >>= g) ((second >>= f') >>= g') c := by
  rwa [bind_assoc, bind_assoc]

omit [Movable β] in
theorem iteBind {condition : Prop} [Decidable condition] {first first' second second' : Read β} {f f' : β → Read α}
    (yes : condition → Agrees place next (first >>= f) (first' >>= f') c)
    (no : ¬condition → Agrees place next (second >>= f) (second' >>= f') c) :
    Agrees place next ((if condition then first else second) >>= f) ((if condition then first' else second') >>= f')
      c := by
  by_cases holds : condition
  · rw [if_pos holds, if_pos holds]
    exact yes holds
  · rw [if_neg holds, if_neg holds]
    exact no holds

/-! ## What a cursor tells -/

theorem start {f f' : Nat → Read α} (goesOn : Agrees place next (f c.start) (f' (c.start + A.distance)) c) :
    Agrees place next (Read.start >>= f) (Read.start >>= f') c := by
  intro stands
  have same : (Read.start >>= f') (c.move A.distance) = f' (c.start + A.distance) (c.move A.distance) := by
    rw [← stands.sound.start_move]
    rfl
  rw [Alike, same]
  exact goesOn stands

theorem cursor {f f' : Cursor → Read α} (goesOn : Agrees place next (f c) (f' (c.move A.distance)) c) :
    Agrees place next (get >>= f) (get >>= f') c :=
  goesOn

theorem token {f f' : Token → Read α}
    (goesOn : ∀ token, c.token = token → Agrees place next (f token) (f' token) c) :
    Agrees place next (Read.token >>= f) (Read.token >>= f') c :=
  goesOn c.token rfl

theorem onNewLine {f f' : Bool → Read α} (goesOn : ∀ broken, Agrees place next (f broken) (f' broken) c) :
    Agrees place next (Read.onNewLine >>= f) (Read.onNewLine >>= f') c :=
  goesOn c.broken

theorem atPunct {text : String} {f f' : Bool → Read α}
    (goesOn : ∀ there, (there = true → c.token = .punct text) → Agrees place next (f there) (f' there) c) :
    Agrees place next (Read.atPunct text >>= f) (Read.atPunct text >>= f') c :=
  goesOn (c.token == .punct text) beq_iff_eq.1

theorem atSpelling {text : String} {f f' : Bool → Read α}
    (goesOn : ∀ there, Agrees place next (f there) (f' there) c) :
    Agrees place next (Read.atSpelling text >>= f) (Read.atSpelling text >>= f') c := by
  intro stands
  have sound := stands.sound
  have length : (c.move A.distance).stop - (c.move A.distance).start = c.stop - c.start := by
    rw [sound.start_move, sound.stop_move, Nat.add_sub_add_right]
  have opened (tail : Bool → Read α) (cursor : Cursor) : (Read.atSpelling text >>= tail) cursor =
      tail (cursor.text.take (cursor.stop - cursor.start) == text.toList) cursor := rfl
  rw [Alike, opened, opened, length]
  exact goesOn _ stands

theorem atWord {text : String} {f f' : Bool → Read α}
    (goesOn : ∀ there, (there = true → c.token = .name text false) → Agrees place next (f there) (f' there) c) :
    Agrees place next (Read.atWord text >>= f) (Read.atWord text >>= f') c :=
  goesOn (c.token == .name text false) beq_iff_eq.1

/-- A node starts at a moved offset and ends behind the token read last. -/
theorem node {form : Form} {begins begins' : Nat} {parts parts' : List Syntax} {f f' : Syntax → Read α}
    (starts : begins' = begins + A.distance) (moved : parts' = move A.distance parts)
    (goesOn : ∀ tree, Agrees place next (f tree) (f' (move A.distance tree)) c) :
    Agrees place next (Read.finishNode form begins parts >>= f) (Read.finishNode form begins' parts' >>= f') c := by
  have same : move A.distance (Syntax.node form begins c.lastStop parts) =
      .node form begins' (c.lastStop + A.distance) parts' := by
    rw [starts, moved, ← Syntax.moveAll_eq]
    rfl
  have whole := goesOn (.node form begins c.lastStop parts)
  rw [same] at whole
  exact whole

theorem finishNode {form : Form} {begins begins' : Nat} {parts parts' : List Syntax} {onward : Syntax → A.Place}
    (starts : begins' = begins + A.distance) (moved : parts' = move A.distance parts)
    (stays : ∀ tree, onward tree = place) :
    Agrees place onward (Read.finishNode form begins parts) (Read.finishNode form begins' parts') c := by
  rw [← bind_pure (Read.finishNode form begins parts), ← bind_pure (Read.finishNode form begins' parts')]
  exact node starts moved fun tree => .pure rfl (stays tree)

/-! ## What moves a cursor -/

/-- One token further, the account knows where. -/
theorem alike_advance {f f' : Unit → Read α} (target : A.Place) (sound : c.Sound) (more : c.token ≠ .finish)
    (leads : ∀ d, c.next? = some d → A.Holds target d)
    (goesOn : ∀ d, d.text.length < c.text.length → c.next? = some d → Agrees target next (f ()) (f' ()) d) :
    Alike next (Read.advance >>= f) (Read.advance >>= f') c := by
  have opened (tail : Unit → Read α) (cursor : Cursor) :
      (Read.advance >>= tail) cursor = cursor.next?.bind fun d => tail () d := by
    show (cursor.next?.map fun d => ((), d)).bind _ = _
    rw [Option.bind_map]
    rfl
  rw [Alike, opened, opened, sound.next_move]
  cases following : c.next? with
  | none => exact ⟨rfl, fun _ _ impossible => nomatch impossible⟩
  | some d =>
      have shorter : d.text.length < c.text.length :=
        Nat.lt_of_le_of_lt (Cursor.next_text following) (sound.token more)
      obtain ⟨same, leads⟩ := goesOn d shorter following (leads d following)
      refine ⟨same, fun result e read => ?_⟩
      obtain ⟨stands, less⟩ := leads result e read
      exact ⟨stands, Nat.le_trans less (Nat.le_of_lt shorter)⟩

theorem step {f f' : Unit → Read α} (target : A.Place) (more : c.token ≠ .finish)
    (leads : ∀ d, A.Holds place c → c.next? = some d → A.Holds target d)
    (goesOn : ∀ d, d.text.length < c.text.length → c.next? = some d → Agrees target next (f ()) (f' ()) d) :
    Agrees place next (Read.advance >>= f) (Read.advance >>= f') c :=
  fun stands => alike_advance target stands.sound more (fun d => leads d stands) goesOn

/-- A regular expression is read anew from its slash on, and passed. -/
theorem advancePattern {rest : List Char} {f f' : Unit → Read α}
    (slash : c.token = .punct "/" ∨ c.token = .punct "/=") (read : pattern? (c.text.drop 1) = some rest)
    (goesOn : ∀ d, d.text.length < c.text.length → Agrees (.code station) next (f ()) (f' ()) d) :
    Agrees (.code station) next (set { c with token := .pattern, rest } >>= fun _ => Read.advance >>= f)
      (set { c.move A.distance with token := .pattern, rest } >>= fun _ => Read.advance >>= f') c := by
  intro stands
  obtain ⟨part, source, full⟩ := behind_pattern read
  exact alike_advance (.code station) ((A.sound stands).anew source full) (fun same => nomatch same)
    (fun d following => A.pattern stands slash read following)
    fun d shorter _ => goesOn d shorter

theorem ne_finish_of_isPlain {token : Token} (plain : token.isPlain = true) : token ≠ .finish := by
  rintro rfl
  cases plain

theorem advanceTo {f f' : Unit → Read α} (plain : c.token.isPlain = true)
    (goesOn : ∀ d, d.text.length < c.text.length → c.next? = some d → Agrees (.code station) next (f ()) (f' ()) d) :
    Agrees (.code station) next (Read.advance >>= f) (Read.advance >>= f') c :=
  step (.code station) (ne_finish_of_isPlain plain) (fun _ stands following => A.plain stands plain following) goesOn

theorem advance {f f' : Unit → Read α} (plain : c.token.isPlain = true)
    (goesOn : ∀ d, d.text.length < c.text.length → Agrees (.code station) next (f ()) (f' ()) d) :
    Agrees (.code station) next (Read.advance >>= f) (Read.advance >>= f') c :=
  advanceTo plain fun d shorter _ => goesOn d shorter

theorem advanceOnly (plain : c.token.isPlain = true) :
    Agrees (.code station) (fun _ => .code station) Read.advance Read.advance c := by
  rw [← bind_pure Read.advance]
  exact advance plain fun _ _ => .pure rfl rfl

/-- Past the brace that opens. -/
theorem advanceOpen {f f' : Unit → Read α} (opening : c.token = .punct "\x7b")
    (goesOn : ∀ d, d.text.length < c.text.length → Agrees (.code (A.inBraces station)) next (f ()) (f' ()) d) :
    Agrees (.code station) next (Read.advance >>= f) (Read.advance >>= f') c :=
  step (.code (A.inBraces station)) (fun same => nomatch opening.symm.trans same)
    (fun _ stands following => A.opens stands opening following)
    fun d shorter _ => goesOn d shorter

/-- Past the brace that closes. -/
theorem advanceClose {f f' : Unit → Read α} (closing : c.token = .punct "\x7d")
    (goesOn : ∀ d, d.text.length < c.text.length → Agrees (.code station) next (f ()) (f' ()) d) :
    Agrees (.code (A.inBraces station)) next (Read.advance >>= f) (Read.advance >>= f') c :=
  step (.code station) (fun same => nomatch closing.symm.trans same) (fun _ stands following => A.closes stands closing following)
    fun d shorter _ => goesOn d shorter

/-- At the start of a template readers are at a piece of it. -/
theorem inPiece {f f' : Read α} (piece : ∃ closed wellFormed, c.token = .template closed wellFormed)
    (goesOn : Agrees (.piece station) next f f' c) : Agrees (.code station) next f f' c := by
  obtain ⟨closed, wellFormed, piece⟩ := piece
  intro stands
  refine goesOn ⟨A.sound stands, closed, wellFormed, piece, fun d following => ?_⟩
  cases closed with
  | true => exact A.plain stands (piece ▸ rfl) following
  | false => exact A.substitution stands piece following

/-- Past a piece of a template, behind the template or into a substitution of it. -/
theorem advancePiece {closed wellFormed : Bool} {f f' : Unit → Read α} (piece : c.token = .template closed wellFormed)
    (goesOn : ∀ d, d.text.length < c.text.length →
      Agrees (.code (if closed then station else A.inSubstitution station)) next (f ()) (f' ()) d) :
    Agrees (.piece station) next (Read.advance >>= f) (Read.advance >>= f') c := by
  refine step (.code (if closed then station else A.inSubstitution station)) (fun same => nomatch piece.symm.trans same)
    (fun d stands following => ?_) fun d shorter _ => goesOn d shorter
  obtain ⟨-, _, _, same, leads⟩ := stands
  cases piece.symm.trans same
  exact leads d following

theorem eatPunct {text : String} {f f' : Bool → Read α} (plain : (Token.punct text).isPlain = true)
    (eaten : ∀ d, d.text.length < c.text.length → Agrees (.code station) next (f true) (f' true) d)
    (other : Agrees (.code station) next (f false) (f' false) c) :
    Agrees (.code station) next (Read.eatPunct text >>= f) (Read.eatPunct text >>= f') c := by
  rw [Read.eatPunct_bind, Read.eatPunct_bind]
  refine atPunct fun there known => ite (fun isThere => ?_) fun isNot => ?_
  · exact advance ((known isThere).symm ▸ plain) eaten
  · exact other

theorem eatWord {text : String} {f f' : Bool → Read α}
    (eaten : ∀ d, d.text.length < c.text.length → Agrees (.code station) next (f true) (f' true) d)
    (other : Agrees (.code station) next (f false) (f' false) c) :
    Agrees (.code station) next (Read.eatWord text >>= f) (Read.eatWord text >>= f') c := by
  rw [Read.eatWord_bind, Read.eatWord_bind]
  refine atWord fun there known => ite (fun isThere => ?_) fun isNot => ?_
  · exact advance ((known isThere).symm ▸ rfl) eaten
  · exact other

theorem eatPunctOnly {text : String} (plain : (Token.punct text).isPlain = true) :
    Agrees (.code station) (fun _ => .code station) (Read.eatPunct text) (Read.eatPunct text) c := by
  rw [← bind_pure (Read.eatPunct text)]
  exact eatPunct plain (fun _ _ => .pure rfl rfl) (.pure rfl rfl)

theorem eatWordOnly {text : String} :
    Agrees (.code station) (fun _ => .code station) (Read.eatWord text) (Read.eatWord text) c := by
  rw [← bind_pure (Read.eatWord text)]
  exact eatWord (fun _ _ => .pure rfl rfl) (.pure rfl rfl)

theorem eatClose {f f' : Bool → Read α}
    (eaten : ∀ d, d.text.length < c.text.length → Agrees (.code station) next (f true) (f' true) d)
    (other : Agrees (.code (A.inBraces station)) next (f false) (f' false) c) :
    Agrees (.code (A.inBraces station)) next (Read.eatPunct "\x7d" >>= f) (Read.eatPunct "\x7d" >>= f') c := by
  rw [Read.eatPunct_bind, Read.eatPunct_bind]
  refine atPunct fun there known => ite (fun isThere => ?_) fun isNot => ?_
  · exact advanceClose (known isThere) eaten
  · exact other

theorem expectPunct {text : String} {f f' : Unit → Read α} (plain : (Token.punct text).isPlain = true)
    (goesOn : ∀ d, d.text.length < c.text.length → Agrees (.code station) next (f ()) (f' ()) d) :
    Agrees (.code station) next (Read.expectPunct text >>= f) (Read.expectPunct text >>= f') c := by
  rw [Read.expectPunct_bind, Read.expectPunct_bind]
  exact eatPunct plain goesOn .failure

theorem expectWord {text : String} {f f' : Unit → Read α}
    (goesOn : ∀ d, d.text.length < c.text.length → Agrees (.code station) next (f ()) (f' ()) d) :
    Agrees (.code station) next (Read.expectWord text >>= f) (Read.expectWord text >>= f') c := by
  rw [Read.expectWord_bind, Read.expectWord_bind]
  exact eatWord goesOn .failure

theorem expectClose {f f' : Unit → Read α}
    (goesOn : ∀ d, d.text.length < c.text.length → Agrees (.code station) next (f ()) (f' ()) d) :
    Agrees (.code (A.inBraces station)) next (Read.expectPunct "\x7d" >>= f) (Read.expectPunct "\x7d" >>= f') c := by
  rw [Read.expectPunct_bind, Read.expectPunct_bind]
  exact eatClose goesOn .failure

theorem expectOpen {f f' : Unit → Read α}
    (goesOn : ∀ d, d.text.length < c.text.length → Agrees (.code (A.inBraces station)) next (f ()) (f' ()) d) :
    Agrees (.code station) next (Read.expectPunct "\x7b" >>= f) (Read.expectPunct "\x7b" >>= f') c := by
  rw [Read.expectPunct_bind, Read.expectPunct_bind, Read.eatPunct_bind, Read.eatPunct_bind]
  refine atPunct fun there known => ite (fun isThere => ?_) fun isNot => .failure
  exact advanceOpen (known isThere) goesOn

theorem flaw {f f' : Unit → Read α}
    (goesOn : ∀ d, d.text.length = c.text.length → d.token = c.token → Agrees place next (f ()) (f' ()) d) :
    Agrees place next (Read.flaw >>= f) (Read.flaw >>= f') c :=
  fun stands => goesOn { c with flawed := true } rfl rfl stands.flawed

theorem flawIf {condition condition' : Bool} {f f' : Unit → Read α} (same : condition' = condition)
    (goesOn : ∀ d, d.text.length = c.text.length → d.token = c.token → Agrees place next (f ()) (f' ()) d) :
    Agrees place next (Read.flawIf condition >>= f) (Read.flawIf condition' >>= f') c := by
  subst same
  cases condition' with
  | true => exact flaw goesOn
  | false => exact goesOn c rfl rfl

/-! ## Glances, attempts and repetitions -/

/-- A glance whose answer tells of no places leaves the cursor where it is. -/
theorem lookahead {reader reader' : Read β} {f f' : Option β → Read α}
    (glance : Agrees place (fun _ => place) reader reader' c) (fixed : ∀ value : β, move A.distance value = value)
    (goesOn : ∀ answer, (reader c).map Prod.fst = answer → Agrees place next (f answer) (f' answer) c) :
    Agrees place next (Read.lookahead reader >>= f) (Read.lookahead reader' >>= f') c := by
  intro stands
  have same : (reader' (c.move A.distance)).map Prod.fst = (reader c).map Prod.fst := by
    rw [(glance stands).1, Option.map_map]
    exact congrArg (Option.map · _) (funext fun found => fixed found.1)
  have opened : (Read.lookahead reader' >>= f') (c.move A.distance) =
      f' ((reader' (c.move A.distance)).map Prod.fst) (c.move A.distance) := rfl
  rw [Alike, opened, same]
  exact goesOn _ rfl stands

theorem attempt {reader reader' : Read β} {f f' : Option β → Read α} {onward : β → A.Place}
    (trial : Agrees place onward reader reader' c)
    (success : ∀ value d, d.text.length ≤ c.text.length →
      Agrees (onward value) next (f (some value)) (f' (some (move A.distance value))) d)
    (defeat : Agrees place next (f none) (f' none) c) :
    Agrees place next (Read.attempt reader >>= f) (Read.attempt reader' >>= f') c := by
  intro stands
  obtain ⟨same, leads⟩ := trial stands
  have opened (reader : Read β) (tail : Option β → Read α) (cursor : Cursor) :
      (Read.attempt reader >>= tail) cursor =
        (reader cursor).elim (tail none cursor) fun found => tail (some found.1) found.2 := by
    show Option.bind (Read.attempt reader cursor) _ = _
    unfold Read.attempt
    cases reader cursor <;> rfl
  rw [Alike, opened, opened, same]
  cases found : reader c with
  | none => exact defeat stands
  | some result =>
      obtain ⟨value, d⟩ := result
      obtain ⟨stands, shorter⟩ := leads value d found
      obtain ⟨same, leads⟩ := success value d shorter stands
      refine ⟨same, fun result e read => ?_⟩
      obtain ⟨stands, less⟩ := leads result e read
      exact ⟨stands, Nat.le_trans less shorter⟩

theorem repeatWithin {step step' : α → Read (α ⊕ β)} {onward : β → A.Place} {length : Nat}
    (round : ∀ state d, d.text.length ≤ length →
      Agrees place (Sum.elim (fun _ => place) onward) (step state) (step' (move A.distance state)) d)
    (budget : Nat) : ∀ state c, c.text.length ≤ length →
      Agrees place onward (Read.repeatWithin step budget state)
        (Read.repeatWithin step' budget (move A.distance state)) c := by
  induction budget with
  | zero => exact fun _ _ _ => .failure
  | succ budget hypothesis =>
      intro state c fits
      unfold Read.repeatWithin
      refine (round state c fits).bind fun result d shorter => ?_
      cases result with
      | inl state => exact hypothesis state d (Nat.le_trans shorter fits)
      | inr result => exact .pure rfl rfl

theorem repeatFrom {step step' : α → Read (α ⊕ β)} {state state' : α} {onward : β → A.Place}
    (moved : state' = move A.distance state)
    (round : ∀ state d, d.text.length ≤ c.text.length →
      Agrees place (Sum.elim (fun _ => place) onward) (step state) (step' (move A.distance state)) d) :
    Agrees place onward (Read.repeatFrom state step) (Read.repeatFrom state' step') c := by
  subst moved
  exact repeatWithin round (c.text.length + 2) state c (Nat.le_refl _)

/-- A repetition that leads to a station, and what follows it. -/
theorem loopTo {step step' : β → Read (β ⊕ γ)} {state state' : β} {f f' : γ → Read α} (target : A.Place)
    (moved : state' = move A.distance state)
    (round : ∀ state d, d.text.length ≤ c.text.length →
      Agrees place (Sum.elim (fun _ => place) fun _ => target) (step state) (step' (move A.distance state)) d)
    (goesOn : ∀ result d, d.text.length ≤ c.text.length →
      Agrees target next (f result) (f' (move A.distance result)) d) :
    Agrees place next (Read.repeatFrom state step >>= f) (Read.repeatFrom state' step' >>= f') c :=
  (repeatFrom moved round).bind goesOn

/-- A repetition that keeps the account where it is. -/
theorem cycle {step step' : β → Read (β ⊕ α)} {state state' : β} (moved : state' = move A.distance state)
    (round : ∀ state d, d.text.length ≤ c.text.length →
      Agrees place (fun _ => place) (step state) (step' (move A.distance state)) d) :
    Agrees place (fun _ => place) (Read.repeatFrom state step) (Read.repeatFrom state' step') c := by
  refine repeatFrom moved fun state d shorter => ?_
  rw [Sum.elim_lam_const_lam_const]
  exact round state d shorter

/-- A repetition that keeps the account where it is, and what follows it. -/
theorem loop {step step' : β → Read (β ⊕ γ)} {state state' : β} {f f' : γ → Read α}
    (moved : state' = move A.distance state)
    (round : ∀ state d, d.text.length ≤ c.text.length →
      Agrees place (fun _ => place) (step state) (step' (move A.distance state)) d)
    (goesOn : ∀ result d, d.text.length ≤ c.text.length →
      Agrees place next (f result) (f' (move A.distance result)) d) :
    Agrees place next (Read.repeatFrom state step >>= f) (Read.repeatFrom state' step' >>= f') c :=
  (cycle moved round).bind goesOn

theorem elementsUntil {close : String} {element element' : Read α}
    (each : ∀ d, d.text.length ≤ c.text.length → Agrees (.code station) (fun _ => .code station) element element' d) :
    Agrees (.code station) (fun _ => .code station) (Read.elementsUntil close element) (Read.elementsUntil close element') c := by
  refine cycle rfl fun elements d shorter => ?_
  refine atPunct fun there _ => ite (fun _ => .pure (by simp) rfl) fun _ => ?_
  refine (each d shorter).bind fun value e less => ?_
  refine atPunct fun there _ => ite (fun _ => .pure (by simp) rfl) fun _ => ?_
  exact expectPunct (by decide) fun f _ => .pure rfl rfl

end Agrees

/-- The readers agree and keep the account where it is. -/
abbrev Keeps (station : A.Station) (first second : Read α) (c : Cursor) : Prop :=
  Agrees (.code station) (fun _ => .code station) first second c

/--
The rules agree wherever the level is enough for the text: six levels for each character, and as many as rules
can follow each other without reading one.
-/
structure Twins (A : Account) (level : Nat) (rules rules' : Rules) : Prop where
  member {station : A.Station} {c : Cursor} (setting : Setting) (deep : 6 * c.text.length + 1 ≤ level) :
    Keeps station (rules.member setting) (rules'.member setting) c
  binding {station : A.Station} {c : Cursor} (setting : Setting) (deep : 6 * c.text.length + 1 ≤ level) :
    Keeps station (rules.binding setting) (rules'.binding setting) c
  unary {station : A.Station} {c : Cursor} (setting : Setting) (deep : 6 * c.text.length + 2 ≤ level) :
    Keeps station (rules.unary setting) (rules'.unary setting) c
  binary {station : A.Station} {c : Cursor} (setting : Setting) (least : Nat) (deep : 6 * c.text.length + 3 ≤ level) :
    Keeps station (rules.binary setting least) (rules'.binary setting least) c
  assignment {station : A.Station} {c : Cursor} (setting : Setting) (deep : 6 * c.text.length + 4 ≤ level) :
    Keeps station (rules.assignment setting) (rules'.assignment setting) c
  statement {station : A.Station} {c : Cursor} (setting : Setting) (deep : 6 * c.text.length + 5 ≤ level) :
    Keeps station (rules.statement setting) (rules'.statement setting) c

/-- An expression with commas. -/
theorem Twins.sequence {level : Nat} {rules rules' : Rules} (twins : Twins A level rules rules') (setting : Setting)
    (deep : 6 * c.text.length + 4 ≤ level) :
    Keeps station (sequenceOf rules setting) (sequenceOf rules' setting) c := by
  unfold sequenceOf
  refine .start ?_
  refine (twins.assignment setting deep).bind fun first d shorter => ?_
  refine .atPunct fun there _ => .ite (fun _ => ?_) fun _ => .pure rfl rfl
  refine .loop rfl (fun found e less => ?_) fun all e less => ?_
  · refine .eatPunct (by decide) (fun f further => ?_) (.pure (by simp) rfl)
    refine (twins.assignment setting (by omega)).bind fun value g behind => ?_
    exact .pure (by simp) rfl
  · exact .finishNode rfl rfl fun _ => rfl

end Script
end HtmlTemplate
