import DeviceNaming.Json.Token
import DeviceNaming.Json.Writer
import Mathlib.Tactic.SplitIfs

/-!
# Strings of a document

A string stands in a document as pieces between quotes: characters as they are, letters after a backslash, and code
units of four hexadecimal digits. `content` says what the pieces spell, if they spell characters at all. Whatever
follows, the token of the string is the one of its content, and it ends at its quote (`textToken_closedBy`).

Every written text is such a string and spells itself (`exists_pieces`).
-/

namespace DeviceNaming.Json

/-- A hexadecimal digit in either case. -/
abbrev HexDigit := { c : Char // (hexDigit? c).isSome = true }

def HexDigit.value (d : HexDigit) : Nat := (hexDigit? d.1).get d.2

/-- A 16-bit code unit by its digits. -/
structure CodeUnit where
  a : HexDigit
  b : HexDigit
  c : HexDigit
  d : HexDigit

namespace CodeUnit

def value (u : CodeUnit) : Nat := ((u.a.value * 16 + u.b.value) * 16 + u.c.value) * 16 + u.d.value

def write (u : CodeUnit) : List Char := [u.a.1, u.b.1, u.c.1, u.d.1]

/-- Does the code unit begin a pair? -/
abbrev IsLeading (u : CodeUnit) : Prop := 0xD800 ≤ u.value ∧ u.value ≤ 0xDBFF

/-- Does the code unit end a pair? -/
abbrev IsTrailing (u : CodeUnit) : Prop := 0xDC00 ≤ u.value ∧ u.value ≤ 0xDFFF

/-- The character of a pair. -/
def pair (u v : CodeUnit) : Char := Char.ofNat (0x10000 + (u.value - 0xD800) * 0x400 + (v.value - 0xDC00))

end CodeUnit

/-- A part of a string as it stands in a document. -/
inductive Piece where
  | plain (c : Char) (h : 0x20 ≤ c.toNat ∧ c ≠ '"' ∧ c ≠ '\\')
  | letter (l : Char) (h : (escape? l).isSome = true)
  | unit (u : CodeUnit)

def Piece.write : Piece → List Char
  | plain c _ => [c]
  | letter l _ => ['\\', l]
  | unit u => '\\' :: 'u' :: u.write

/-- The string of the pieces, with its quotes. -/
def quoted (ps : List Piece) : List Char := '"' :: (ps.flatMap Piece.write ++ ['"'])

/-- The characters that pieces spell. Code units that begin a pair and such that end one have to stand in pairs. -/
def spelled : List Piece → Except Fault (List Char)
  | [] => .ok []
  | .plain c _ :: ps => (spelled ps).map (c :: ·)
  | .letter l h :: ps => (spelled ps).map ((escape? l).get h :: ·)
  | .unit u :: ps =>
      if u.IsLeading then
        match ps with
        | .unit v :: ps => if v.IsTrailing then (spelled ps).map (u.pair v :: ·) else .error .malformed
        | _ => .error .malformed
      else if u.IsTrailing then .error .malformed
      else (spelled ps).map (Char.ofNat u.value :: ·)

/-- What a string spells. -/
def content (ps : List Piece) : Except Fault String := (spelled ps).map String.ofList

/-! ## Code units -/

theorem hexDigit?_val (d : HexDigit) : hexDigit? d.1 = some d.value := (Option.some_get d.2).symm

theorem hexFour_write (u : CodeUnit) (rest : Source) : hexFour (u.write.map some ++ rest) = .ok (u.value, rest) := by
  change hexFour (some u.a.1 :: some u.b.1 :: some u.c.1 :: some u.d.1 :: rest) = _
  simp only [hexFour, hexDigit?_val]
  rfl

theorem codePoint_of_isTrailing {u : CodeUnit} (h : u.IsTrailing) (rest : Source) :
    codePoint u.value rest = .error .malformed := if_pos h

theorem codePoint_of_single {u : CodeUnit} (h : ¬u.IsTrailing) (h' : ¬u.IsLeading) (rest : Source) :
    codePoint u.value rest = .ok (Char.ofNat u.value, rest) := by
  unfold codePoint
  rw [if_neg h, if_pos (by omega)]

theorem codePoint_of_isLeading {u : CodeUnit} (h : u.IsLeading) (v : CodeUnit) (rest : Source) :
    codePoint u.value ((Piece.unit v).write.map some ++ rest) =
      if v.IsTrailing then .ok (u.pair v, rest) else .error .malformed := by
  change codePoint u.value (some '\\' :: some 'u' :: (v.write.map some ++ rest)) = _
  rw [codePoint, if_neg (by omega), if_neg (by omega), hexFour_write]
  dsimp only
  by_cases hv : v.IsTrailing
  · rw [if_neg (by omega), if_pos hv]
    rfl
  · rw [if_pos (by omega), if_neg hv]

/-- A code unit that begins a pair wants another code unit after it, and no other character. -/
theorem codePoint_of_plain {u : CodeUnit} (h : u.IsLeading) {c : Char} (hc : c ≠ '\\') (rest : Source) :
    codePoint u.value (some c :: rest) = .error .malformed := by
  rw [codePoint, if_neg (by omega), if_neg (by omega)]
  all_goals simp [hc]

theorem codePoint_of_letter {u : CodeUnit} (h : u.IsLeading) {l : Char} (hl : l ≠ 'u') (rest : Source) :
    codePoint u.value (some '\\' :: some l :: rest) = .error .malformed := by
  rw [codePoint, if_neg (by omega), if_neg (by omega)]
  all_goals simp [hl]

/-! ## Reading and passing over -/

/-- The pieces of a string and the quote that closes it, before the rest of a source. -/
def closedBy (ps : List Piece) (rest : Source) : Source := (ps.flatMap Piece.write).map some ++ some '"' :: rest

theorem closedBy_cons (p : Piece) (ps : List Piece) (rest : Source) :
    closedBy (p :: ps) rest = p.write.map some ++ closedBy ps rest := by
  rw [closedBy, closedBy, List.flatMap_cons, List.map_append, List.append_assoc]

theorem length_closedBy (ps : List Piece) (rest : Source) : ps.length + rest.length < (closedBy ps rest).length := by
  induction ps with
  | nil => simp [closedBy]
  | cons p ps ih =>
    have hpos : 0 < p.write.length := by cases p <;> exact Nat.succ_pos _
    rw [closedBy_cons, List.length_append, List.length_map, List.length_cons]
    omega

theorem escape?_ne {l : Char} (h : (escape? l).isSome = true) : l ≠ 'u' := by
  rintro rfl
  exact absurd h (by decide)

/-- A piece is passed over in one step, whatever follows it. -/
theorem skipText_write (fuel : Nat) (p : Piece) (rest : Source) :
    skipText (fuel + 1) (p.write.map some ++ rest) = skipText fuel rest := by
  cases p with
  | plain c h =>
    change skipText _ (some c :: rest) = _
    rw [skipText, if_neg (by omega)]
    · exact h.2.1
    all_goals simp [h.2.2]
  | letter l h =>
    have hu : some l = some 'u' → False := fun heq => escape?_ne h (Option.some.inj heq)
    change skipText _ (some '\\' :: some l :: rest) = _
    rw [skipText, Option.bind_some, if_pos h]
    exact hu
  | unit u =>
    change skipText _ (some '\\' :: some 'u' :: (u.write.map some ++ rest)) = _
    rw [skipText, hexFour_write]

theorem skipText_closedBy (ps : List Piece) (rest : Source) :
    ∀ fuel, ps.length < fuel → skipText fuel (closedBy ps rest) = .ok rest := by
  induction ps with
  | nil =>
    intro fuel hfuel
    obtain ⟨fuel, rfl⟩ := Nat.exists_eq_add_one.2 hfuel
    rfl
  | cons p ps ih =>
    intro fuel hfuel
    obtain ⟨fuel, rfl⟩ := Nat.exists_eq_add_one.2 (Nat.zero_lt_of_lt hfuel)
    rw [closedBy_cons, skipText_write, ih fuel (Nat.lt_of_succ_lt_succ hfuel)]

theorem readText_plain (fuel : Nat) {c : Char} (h : 0x20 ≤ c.toNat ∧ c ≠ '"' ∧ c ≠ '\\') (rest : Source) :
    readText (fuel + 1) ((Piece.plain c h).write.map some ++ rest) = (readText fuel rest).map (some c :: ·) := by
  change readText _ (some c :: rest) = _
  rw [readText, if_neg (by omega)]
  · exact h.2.1
  all_goals simp [h.2.2]

theorem readText_letter (fuel : Nat) {l : Char} (h : (escape? l).isSome = true) (rest : Source) :
    readText (fuel + 1) ((Piece.letter l h).write.map some ++ rest) =
      (readText fuel rest).map (some ((escape? l).get h) :: ·) := by
  have hu : some l = some 'u' → False := fun heq => escape?_ne h (Option.some.inj heq)
  have he : escape? l = some ((escape? l).get h) := (Option.some_get h).symm
  generalize (escape? l).get h = e at he ⊢
  change readText _ (some '\\' :: some l :: rest) = _
  rw [readText, Option.bind_some, he]
  exact hu

/-- After a code unit, reading goes on behind the character that it is a part of. -/
theorem readText_unit (fuel : Nat) (u : CodeUnit) (rest : Source) :
    readText (fuel + 1) ((Piece.unit u).write.map some ++ rest) =
      match codePoint u.value rest with
      | .error f => .error f
      | .ok (c, rest) => (readText fuel rest).map (some c :: ·) := by
  change readText _ (some '\\' :: some 'u' :: (u.write.map some ++ rest)) = _
  cases h : codePoint u.value rest <;> simp only [readText, hexFour_write, h]

theorem map_cons_some (c : Char) (r : Except Fault (List Char)) :
    (r.map (·.map some)).map (some c :: ·) = (r.map (c :: ·)).map (·.map some) := by
  cases r <;> rfl

/-- A code unit that begins a pair is refused before anything but a code unit, the closing quote included. -/
theorem codePoint_closedBy {u : CodeUnit} (hu : u.IsLeading) {ps : List Piece} (hps : ∀ v qs, ps ≠ .unit v :: qs)
    (rest : Source) : codePoint u.value (closedBy ps rest) = .error .malformed := by
  rcases ps with _ | ⟨⟨c, h⟩ | ⟨l, h⟩ | v, ps⟩
  · exact codePoint_of_plain hu (by decide) _
  · exact codePoint_of_plain hu h.2.2 _
  · exact codePoint_of_letter hu (escape?_ne h) _
  · exact absurd rfl (hps v ps)

/-- What is read are the characters that the pieces spell. -/
theorem readText_closedBy (ps : List Piece) (rest : Source) :
    ∀ fuel, ps.length < fuel → readText fuel (closedBy ps rest) = (spelled ps).map (·.map some) := by
  fun_induction spelled ps <;> intro fuel hfuel <;> obtain ⟨fuel, rfl⟩ := Nat.exists_eq_add_one.2 (Nat.zero_lt_of_lt hfuel)
  case case1 => rfl
  case case2 c h ps ih =>
    rw [closedBy_cons, readText_plain, ih fuel (Nat.lt_of_succ_lt_succ hfuel), map_cons_some]
  case case3 l h ps ih =>
    rw [closedBy_cons, readText_letter, ih fuel (Nat.lt_of_succ_lt_succ hfuel), map_cons_some]
  case case4 u hu v ps hv ih =>
    rw [closedBy_cons, readText_unit, closedBy_cons, codePoint_of_isLeading hu, if_pos hv]
    dsimp only
    rw [ih fuel (Nat.lt_of_succ_lt (Nat.lt_of_succ_lt_succ hfuel)), map_cons_some]
  case case5 u hu v ps hv =>
    rw [closedBy_cons, readText_unit, closedBy_cons, codePoint_of_isLeading hu, if_neg hv]
    rfl
  case case6 u ps hu hps =>
    rw [closedBy_cons, readText_unit, codePoint_closedBy hu hps]
    rfl
  case case7 u ps _ hu =>
    rw [closedBy_cons, readText_unit, codePoint_of_isTrailing hu]
    rfl
  case case8 u ps hleading htrailing ih =>
    rw [closedBy_cons, readText_unit, codePoint_of_single htrailing hleading]
    dsimp only
    rw [ih fuel (Nat.lt_of_succ_lt_succ hfuel), map_cons_some]

theorem mapM_id_map_some (cs : List Char) : (cs.map some).mapM id = some cs := by
  induction cs with
  | nil => rfl
  | cons c cs ih =>
    rw [List.map_cons, List.mapM_cons, ih]
    rfl

theorem contentOf_closedBy (ps : List Piece) (rest : Source) {fuel : Nat} (hfuel : ps.length < fuel) :
    contentOf fuel (closedBy ps rest) = content ps := by
  rw [contentOf, readText_closedBy ps rest fuel hfuel, content]
  cases spelled ps with
  | error f => rfl
  | ok cs =>
    simp only [Except.map, mapM_id_map_some]

theorem textToken_closedBy (ps : List Piece) (rest : Source) {fuel : Nat} (hfuel : ps.length < fuel) :
    textToken fuel (closedBy ps rest) = (.text (content ps), rest) := by
  rw [textToken, skipText_closedBy ps rest fuel hfuel]
  dsimp only
  rw [contentOf_closedBy ps rest hfuel]

/-! ## Written texts -/

theorem hexDigit?_hexDigit : ∀ n < 16, hexDigit? (hexDigit n) = some n := by decide

/-- The code unit of a control character. -/
def controlUnit (n : Nat) (h : n < 0x20) : CodeUnit where
  a := ⟨'0', by decide⟩
  b := ⟨'0', by decide⟩
  c := ⟨hexDigit (n / 16), by rw [hexDigit?_hexDigit _ (by omega)]; rfl⟩
  d := ⟨hexDigit (n % 16), by rw [hexDigit?_hexDigit _ (by omega)]; rfl⟩

theorem value_controlUnit {n : Nat} (h : n < 0x20) : (controlUnit n h).value = n := by
  have hc : (controlUnit n h).c.value = n / 16 :=
    Option.some.inj ((hexDigit?_val _).symm.trans (hexDigit?_hexDigit _ (by omega)))
  have hd : (controlUnit n h).d.value = n % 16 :=
    Option.some.inj ((hexDigit?_val _).symm.trans (hexDigit?_hexDigit _ (by omega)))
  rw [CodeUnit.value, hc, hd]
  change ((0 * 16 + 0) * 16 + n / 16) * 16 + n % 16 = n
  omega

/-- The piece spells the character. -/
def Piece.Spells (p : Piece) (c : Char) : Prop := ∀ ps, spelled (p :: ps) = (spelled ps).map (c :: ·)

theorem spells_letter {l c : Char} (h : escape? l = some c) :
    (Piece.letter l (h ▸ rfl)).Spells c := by
  intro ps
  simp only [spelled, h, Option.get_some]

theorem spells_control {c : Char} (h : c.toNat < 0x20) : (Piece.unit (controlUnit c.toNat h)).Spells c := by
  intro ps
  have hvalue := value_controlUnit h
  rw [spelled.eq_def]
  dsimp only
  rw [if_neg (by omega), if_neg (by omega), hvalue, Char.ofNat_toNat]

/-- Each character is written as a piece that spells it. -/
theorem exists_piece (c : Char) : ∃ p : Piece, writeChar c = p.write ∧ p.Spells c := by
  unfold writeChar
  split_ifs with hquote hslash hb hf hn hr ht hcontrol
  · exact ⟨_, rfl, spells_letter (l := '"') (congrArg some hquote.symm)⟩
  · exact ⟨_, rfl, spells_letter (l := '\\') (congrArg some hslash.symm)⟩
  · exact ⟨_, rfl, spells_letter (l := 'b') (congrArg some hb.symm)⟩
  · exact ⟨_, rfl, spells_letter (l := 'f') (congrArg some hf.symm)⟩
  · exact ⟨_, rfl, spells_letter (l := 'n') (congrArg some hn.symm)⟩
  · exact ⟨_, rfl, spells_letter (l := 'r') (congrArg some hr.symm)⟩
  · exact ⟨_, rfl, spells_letter (l := 't') (congrArg some ht.symm)⟩
  · exact ⟨_, rfl, spells_control hcontrol⟩
  · exact ⟨.plain c ⟨by omega, hquote, hslash⟩, rfl, fun _ => rfl⟩

theorem exists_pieces_of_chars (cs : List Char) :
    ∃ ps : List Piece, cs.flatMap writeChar = ps.flatMap Piece.write ∧ spelled ps = .ok cs := by
  induction cs with
  | nil => exact ⟨[], rfl, rfl⟩
  | cons c cs ih =>
    obtain ⟨ps, hwrite, hspelled⟩ := ih
    obtain ⟨p, hp, hspells⟩ := exists_piece c
    refine ⟨p :: ps, ?_, ?_⟩
    · rw [List.flatMap_cons, List.flatMap_cons, hp, hwrite]
    · rw [hspells, hspelled]
      rfl

/-- A written text is a string that spells it. -/
theorem exists_pieces (text : String) : ∃ ps, writeText text = quoted ps ∧ content ps = .ok text := by
  obtain ⟨ps, hwrite, hspelled⟩ := exists_pieces_of_chars text.toList
  refine ⟨ps, ?_, ?_⟩
  · rw [writeText, quoted, hwrite]
    rfl
  · rw [content, hspelled]
    exact congrArg Except.ok String.ofList_toList

end DeviceNaming.Json
