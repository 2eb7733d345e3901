import Mathlib.Data.Bool.AllAny
import ObservabilityStack.Python.HttpServer

/-!
# A request on the wire, and that `http.server` reads it back

`Message` is a well-formed HTTP/1.1 request with a body: a target without spaces or controls,
fields of one line each, and a `Content-Length` that is the decimal length of the body. The
values of this type are exactly what a client may put on a connection, so what is proved about
them needs no side condition.

`parseRequest_encode` is the round trip. The parser either refuses the head, because a line or
the number of lines exceeds its limits, or returns what was sent and stops at the first byte of
the body. It never reads the body: where the next head is looked for is up to the handler.

The two directions of a wire format are not symmetric here. The server is lenient: it decodes bytes
that no client should send, and drops lines it cannot read. So there is no theorem that whatever is
read was written as some `Message`; the one direction that holds is the one a connection needs,
since on it a request that is misread moves the start of the next one.

The structure of the file is that of the parser: the request line, then the lines of the block as
lines, then what the `email` package makes of them. Each section ends in the one fact that the next
one uses.
-/

set_option autoImplicit false

namespace ObservabilityStack
namespace Python
namespace HttpServer

/-- The methods the server has a handler for. -/
inductive Method
  | get
  | post
  deriving DecidableEq, Repr

def Method.text : Method → String
  | .get => "GET"
  | .post => "POST"

def Method.bytes : Method → List UInt8
  | .get => [71, 69, 84]
  | .post => [80, 79, 83, 84]

/-- The byte is a printable ASCII character other than the space. -/
def Visible (b : UInt8) : Prop := 33 ≤ b.toNat ∧ b.toNat ≤ 126

instance : DecidablePred Visible := fun _ => inferInstanceAs (Decidable (_ ∧ _))

/-- A header line without its end: the name, and everything behind the colon. -/
structure Field where
  name : List UInt8
  value : List UInt8
  name_ne : name ≠ []
  name_visible : ∀ b ∈ name, Visible b ∧ b.toNat ≠ 58
  value_line : ∀ b ∈ value, b.toNat ≠ 10 ∧ b.toNat ≠ 13

def Field.line (f : Field) : List UInt8 := f.name ++ 58 :: f.value ++ [13]

/-- The field as the server sees it: leading blanks of the value are gone. -/
def Field.text (f : Field) : String × String :=
  (String.ofList (decode f.name), String.ofList ((decode f.value).dropWhile isBlank))

/-- `text` is a decimal number, possibly between blanks. -/
def IsDecimal (text : String) (n : ℕ) : Prop :=
  ∃ pre digits post, text.toList = pre ++ digits ++ post ∧
    (∀ c ∈ pre, isBlank c = true) ∧ (∀ c ∈ post, isBlank c = true) ∧ digits ≠ [] ∧
    (∀ c ∈ digits, isAsciiDigit c = true) ∧
    ofDigits (digits.map fun c => c.toNat - '0'.toNat) = n

/-- A request as a client sends it: a visible target, header fields, and a body whose length is
    what the fields announce. -/
structure Message where
  method : Method
  target : List UInt8
  fields : List Field
  body : List UInt8
  target_ne : target ≠ []
  target_visible : ∀ b ∈ target, Visible b
  framed : match field (fields.map Field.text) "Content-Length" with
    | none => body = []
    | some text => IsDecimal text body.length

namespace Message

/-- The request line without its last byte, the newline. -/
def requestLine (m : Message) : List UInt8 :=
  m.method.bytes ++ 32 :: m.target ++ 32 :: [72, 84, 84, 80, 47, 49, 46, 49] ++ [13]

def headerLines (m : Message) : List (List UInt8) := m.fields.map Field.line

/-- The bytes on the connection. -/
def encode (m : Message) : List UInt8 :=
  m.requestLine ++ [10] ++ (m.headerLines.flatMap (· ++ [10]) ++ [13, 10] ++ m.body)

/-- A limit of the server is exceeded. -/
def Oversized (m : Message) : Prop :=
  maxLine < (m.requestLine ++ [10]).length ∨ maxHeaders ≤ m.fields.length ∨
    ∃ line ∈ m.headerLines, maxLine < (line ++ [10]).length

/-- What a handler is given. -/
def head (m : Message) : Head :=
  ⟨m.method.text, reducePath (decode m.target), m.fields.map Field.text⟩

end Message

/-! ## Decoded bytes

Everything after the cut into lines happens on decoded text. Decoding is injective and one byte to
one character, so a fact about the bytes of a part is a fact about its characters. -/

theorem toNat_latin1Char (b : UInt8) : (latin1Char b).toNat = b.toNat := by
  have hb := b.toNat_lt
  unfold latin1Char Char.ofNat
  rw [dif_pos (Or.inl (by omega))]
  rfl

theorem latin1Char_eq {b : UInt8} {c : Char} (h : latin1Char b = c) : b.toNat = c.toNat := by
  rw [← h, toNat_latin1Char]

theorem decode_append (xs ys : List UInt8) : decode (xs ++ ys) = decode xs ++ decode ys :=
  List.map_append

theorem mem_decode {P : Char → Prop} {bytes : List UInt8} (h : ∀ b ∈ bytes, P (latin1Char b)) :
    ∀ c ∈ decode bytes, P c := by
  intro c hc
  obtain ⟨b, hb, rfl⟩ := List.mem_map.mp hc
  exact h b hb

theorem Visible.not_whitespace {b : UInt8} (h : Visible b) :
    isWhitespace (latin1Char b) = false := by
  obtain ⟨hlow, hhigh⟩ := h
  unfold isWhitespace isSpace
  simp only [toNat_latin1Char, Bool.or_eq_false_iff, decide_eq_false_iff_not]
  omega

theorem isLineEnd_latin1Char {b : UInt8} (h : b.toNat ≠ 10 ∧ b.toNat ≠ 13) :
    isLineEnd (latin1Char b) = false := by
  unfold isLineEnd
  rw [Bool.or_eq_false_iff, decide_eq_false_iff_not, decide_eq_false_iff_not]
  exact ⟨fun hc => h.2 (latin1Char_eq hc), fun hc => h.1 (latin1Char_eq hc)⟩

theorem Visible.line {b : UInt8} (h : Visible b) : b.toNat ≠ 10 ∧ b.toNat ≠ 13 := by
  obtain ⟨hlow, -⟩ := h
  omega

/-! ## The request line

A target has no spaces, so the line has exactly two, and `split` finds three words. -/

theorem newline_notMem {bytes : List UInt8} (h : ∀ b ∈ bytes, b.toNat ≠ 10) : 10 ∉ bytes := by
  intro hmem
  exact h 10 hmem rfl

theorem Message.requestLine_visible (m : Message) : ∀ b ∈ m.requestLine, b.toNat ≠ 10 := by
  have hmethod : ∀ b ∈ m.method.bytes, b.toNat ≠ 10 := by
    cases m.method <;> exact List.all_iff_forall_prop.mp (by decide)
  intro b hb
  simp only [requestLine, List.mem_append, List.mem_cons, List.not_mem_nil, or_false] at hb
  rcases hb with ((hb | rfl | hb) | rfl | hb) | rfl
  · exact hmethod b hb
  · decide
  · exact (m.target_visible b hb).line.1
  · decide
  · rcases hb with rfl | rfl | rfl | rfl | rfl | rfl | rfl | rfl <;> decide
  · decide

/-- The request line comes apart into its three words. -/
theorem parseRequestLine_encode {ε : Type} (m : Message) :
    parseRequestLine (ε := ε) (m.requestLine ++ [10]) =
      .ok (m.method.text, reducePath (decode m.target), false) := by
  have hmethod : decode m.method.bytes = m.method.text.toList := by
    cases m.method <;> rfl
  have hmethodWord : ∀ c ∈ m.method.text.toList, isWhitespace c = false := by
    cases m.method <;> exact List.all_iff_forall_prop.mp (by decide)
  have hmethodLine : ∀ c ∈ m.method.text.toList, isLineEnd c = false := by
    cases m.method <;> exact List.all_iff_forall_prop.mp (by decide)
  have htargetWord : ∀ c ∈ decode m.target, isWhitespace c = false :=
    mem_decode fun b hb => (m.target_visible b hb).not_whitespace
  have htargetLine : ∀ c ∈ decode m.target, isLineEnd c = false :=
    mem_decode fun b hb => isLineEnd_latin1Char (m.target_visible b hb).line
  have hversionLine : ∀ c ∈ ' ' :: "HTTP/1.1".toList, isLineEnd c = false :=
    List.all_iff_forall_prop.mp (by decide)
  -- As text, the line is method, target and version with one blank between each two.
  have htext : decode (m.requestLine ++ [10]) =
      (m.method.text.toList ++ ' ' :: (decode m.target ++ ' ' :: "HTTP/1.1".toList)) ++
        ['\r', '\n'] := by
    rw [← hmethod]
    simp only [Message.requestLine, decode, List.map_append, List.map_cons, List.append_assoc,
      List.cons_append, List.map_nil, List.nil_append]
    rfl
  -- `requestline.rstrip(...)` takes the line end off, and `split()` finds the three words again.
  have hwords : Lines.words isWhitespace
      (Lines.rstrip isLineEnd (decode (m.requestLine ++ [10]))) =
        [m.method.text.toList, decode m.target, "HTTP/1.1".toList] := by
    rw [htext, Lines.rstrip_append (List.all_iff_forall_prop.mp (by decide)) (by
      intro c hc
      rcases List.mem_append.mp hc with hc | hc
      · exact hmethodLine c hc
      · rcases List.mem_cons.mp hc with rfl | hc
        · decide
        · rcases List.mem_append.mp hc with hc | hc
          · exact htargetLine c hc
          · exact hversionLine c hc)]
    rw [Lines.words_cons _ (by cases m.method <;> decide) hmethodWord (by decide),
      Lines.words_cons _ (by simpa [decode] using m.target_ne) htargetWord (by decide),
      Lines.words_single _ (by decide) (List.all_iff_forall_prop.mp (by decide))]
  have hversion : versionNumber (["HTTP/1.1".toList].getLast (List.cons_ne_nil _ _)) =
      some (1, 1) := by decide
  unfold parseRequestLine
  simp only [hwords, hversion, String.ofList_toList]
  rfl

/-! ## The header block

Lines that are neither empty nor too long are read one at a time until the blank one. Either they
all fit, or one exceeds the limit of a line, or there is one too many. The two outcomes are
`readHeaders_fits` and `readHeaders_refuses`. -/

section ReadHeaders

variable {lines : List (List UInt8)} {rest : List UInt8} {n : ℕ}

/-- The wire form of a header block. -/
def block (lines : List (List UInt8)) (rest : List UInt8) : List UInt8 :=
  lines.flatMap (· ++ [10]) ++ [13, 10] ++ rest

theorem block_cons (line : List UInt8) :
    block (line :: lines) rest = line ++ 10 :: block lines rest := by
  simp [block]

theorem readHeaders_blank :
    readHeaders (n + 1) (block [] rest) = some ([[13, 10]], rest) := by
  have hread : Lines.readline 10 (maxLine + 1) ([13] ++ 10 :: rest) = ([13] ++ [10], rest) :=
    Lines.readline_line 10 (by decide) (by decide)
  show readHeaders (n + 1) ([13] ++ 10 :: rest) = _
  unfold readHeaders
  rw [hread]
  rfl

/-- A header line is not the empty one. -/
def IsHeader (line : List UInt8) : Prop := 10 ∉ line ∧ line ≠ [] ∧ line ≠ [13]

theorem IsHeader.not_blank {line : List UInt8} (h : IsHeader line) :
    ¬ (line ++ [10] = [13, 10] ∨ line ++ [10] = [10] ∨ line ++ [10] = []) := by
  rintro (heq | heq | heq)
  · exact h.2.2 (List.append_cancel_right (show line ++ [10] = [13] ++ [10] from heq))
  · exact h.2.1 (List.append_cancel_right (show line ++ [10] = [] ++ [10] from heq))
  · simp at heq

theorem readHeaders_fits (hline : ∀ line ∈ lines, IsHeader line) (hn : lines.length < n)
    (hfit : ∀ line ∈ lines, (line ++ [10]).length ≤ maxLine) :
    readHeaders n (block lines rest) = some (lines.map (· ++ [10]) ++ [[13, 10]], rest) := by
  induction lines generalizing n with
  | nil =>
    obtain ⟨n, rfl⟩ := Nat.exists_eq_succ_of_ne_zero (Nat.ne_of_gt hn)
    exact readHeaders_blank
  | cons line lines ih =>
    obtain ⟨n, rfl⟩ := Nat.exists_eq_succ_of_ne_zero (Nat.ne_of_gt (Nat.zero_lt_of_lt hn))
    have hhead := hline line List.mem_cons_self
    have hlen := hfit line List.mem_cons_self
    have hread : Lines.readline 10 (maxLine + 1) (line ++ 10 :: block lines rest) =
        (line ++ [10], block lines rest) := by
      refine Lines.readline_line 10 hhead.1 ?_
      rw [List.length_append, List.length_singleton] at hlen
      omega
    rw [block_cons]
    unfold readHeaders
    dsimp only
    rw [hread, if_neg (Nat.not_lt.mpr hlen), if_neg hhead.not_blank,
      ih (fun l hl => hline l (List.mem_cons_of_mem _ hl)) (Nat.lt_of_succ_lt_succ hn)
        (fun l hl => hfit l (List.mem_cons_of_mem _ hl))]
    rfl

theorem readHeaders_refuses (hline : ∀ line ∈ lines, IsHeader line)
    (h : n ≤ lines.length ∨ ∃ line ∈ lines, maxLine < (line ++ [10]).length) :
    readHeaders n (block lines rest) = none := by
  induction lines generalizing n with
  | nil =>
    rcases h with h | ⟨line, hl, -⟩
    · rw [Nat.le_zero.mp h]
      rfl
    · cases hl
  | cons line lines ih =>
    have hhead := hline line List.mem_cons_self
    cases n with
    | zero => rfl
    | succ n =>
      rw [block_cons]
      unfold readHeaders
      dsimp only
      -- A line that is too long is refused where it stands; any other uses up one of the `n`.
      by_cases hlong : maxLine < (line ++ [10]).length
      · rw [if_pos (Lines.readline_exceeds 10 hhead.1 hlong)]
      · have hread : Lines.readline 10 (maxLine + 1) (line ++ 10 :: block lines rest) =
            (line ++ [10], block lines rest) := by
          refine Lines.readline_line 10 hhead.1 ?_
          rw [List.length_append, List.length_singleton] at hlong
          omega
        rw [hread, if_neg hlong, if_neg hhead.not_blank,
          ih (fun l hl => hline l (List.mem_cons_of_mem _ hl)) ?_]
        · rfl
        · rcases h with h | ⟨l, hl, hlen⟩
          · exact Or.inl (Nat.le_of_succ_le_succ h)
          · rcases List.mem_cons.mp hl with rfl | hl
            · exact absurd hlen hlong
            · exact Or.inr ⟨l, hl, hlen⟩

end ReadHeaders

theorem Field.isHeader (f : Field) : IsHeader f.line := by
  refine ⟨newline_notMem ?_, ?_, ?_⟩
  · intro b hb
    simp only [Field.line, List.mem_append, List.mem_cons, List.not_mem_nil, or_false] at hb
    rcases hb with (hb | rfl | hb) | rfl
    · exact (f.name_visible b hb).1.line.1
    · decide
    · exact (f.value_line b hb).1
    · decide
  · simp [Field.line]
  · intro heq
    have hlen := congrArg List.length heq
    simp [Field.line] at hlen
    omega

/-! ## The fields

The parser of the `email` package sees the whole block as one text and cuts it again, at a lone
carriage return as well. The fields of a `Message` have none, so it is cut where it was put
together, and no line continues the one above it. -/

theorem crackLines_cons {c : Char} {cs : List Char} (hc : isLineEnd c = false) :
    crackLines (c :: cs) = match crackLines cs with
      | [] => [[c]]
      | line :: lines => (c :: line) :: lines := by
  rw [crackLines, hc]
  · rfl
  · rintro rest rfl
    cases hc

theorem crackLines_line {w cs : List Char} (hw : ∀ c ∈ w, isLineEnd c = false) :
    crackLines (w ++ '\r' :: '\n' :: cs) = (w ++ ['\r', '\n']) :: crackLines cs := by
  induction w with
  | nil => rfl
  | cons c w ih =>
    rw [List.cons_append, crackLines_cons (hw c List.mem_cons_self),
      ih fun d hd => hw d (List.mem_cons_of_mem _ hd)]
    rfl

/-- The text of a field line. -/
def Field.chars (f : Field) : List Char := decode f.name ++ ':' :: decode f.value

theorem Field.decode_line (f : Field) : decode (f.line ++ [10]) = f.chars ++ ['\r', '\n'] := by
  simp only [Field.line, Field.chars, decode, List.map_append, List.map_cons, List.map_nil,
    List.append_assoc, List.cons_append, List.nil_append]
  rfl

theorem Field.chars_line (f : Field) : ∀ c ∈ f.chars, isLineEnd c = false := by
  intro c hc
  rcases List.mem_append.mp hc with hc | hc
  · exact mem_decode (P := fun c => isLineEnd c = false)
      (fun b hb => isLineEnd_latin1Char (f.name_visible b hb).1.line) c hc
  · rcases List.mem_cons.mp hc with rfl | hc
    · decide
    · exact mem_decode (P := fun c => isLineEnd c = false)
        (fun b hb => isLineEnd_latin1Char (f.value_line b hb)) c hc

theorem crackLines_fields (fs : List Field) :
    crackLines (decode ((fs.map Field.line).map (· ++ [10]) ++ [[13, 10]]).flatten) =
      fs.map (fun f => f.chars ++ ['\r', '\n']) ++ [['\r', '\n']] := by
  induction fs with
  | nil => rfl
  | cons f fs ih =>
    simp only [List.map_cons, List.cons_append, List.flatten_cons] at ih ⊢
    rw [decode_append, f.decode_line, List.append_assoc, List.cons_append, List.cons_append,
      List.nil_append, crackLines_line f.chars_line, ih]

theorem Field.name_fieldChar (f : Field) : ∀ c ∈ decode f.name, isFieldChar c = true := by
  refine mem_decode (P := fun c => isFieldChar c = true) ?_
  intro b hb
  obtain ⟨⟨hlow, hhigh⟩, hcolon⟩ := f.name_visible b hb
  refine decide_eq_true ⟨?_, ?_, fun hc => hcolon (latin1Char_eq hc)⟩
  · rwa [toNat_latin1Char]
  · rwa [toNat_latin1Char]

theorem Field.dropWhile_name (f : Field) (rest : List Char) :
    (decode f.name ++ ':' :: rest).dropWhile isFieldChar = ':' :: rest := by
  rw [List.dropWhile_append_of_pos f.name_fieldChar]
  rfl

theorem Field.not_from (f : Field) (rest : List Char) :
    "From ".toList.isPrefixOf (decode f.name ++ ':' :: rest) = false := by
  rw [Bool.eq_false_iff]
  intro hprefix
  obtain ⟨t, ht⟩ := List.isPrefixOf_iff_prefix.mp hprefix
  have hdrop := congrArg (List.dropWhile isFieldChar) ht
  rw [f.dropWhile_name] at hdrop
  cases hdrop

/-- What `parseHeaderLines` does with a field line, whatever field was open. -/
theorem parseHeaderLines_field (f : Field) (last : Option (List Char × List Char))
    (lines : List (List Char)) :
    parseHeaderLines last ((f.chars ++ ['\r', '\n']) :: lines) =
      last.toList ++ parseHeaderLines
        (some (decode f.name, (decode f.value ++ ['\r', '\n']).dropWhile isBlank)) lines := by
  obtain ⟨c, cs, hname⟩ := List.exists_cons_of_ne_nil (show decode f.name ≠ [] by
    simpa [decode] using f.name_ne)
  have hc : isFieldChar c = true := f.name_fieldChar c (hname ▸ List.mem_cons_self)
  have hcolon : c ≠ ':' := (of_decide_eq_true hc).2.2
  have hblank : isBlank c = false := by
    have hlow := (of_decide_eq_true hc).1
    unfold isBlank
    rw [Bool.or_eq_false_iff, decide_eq_false_iff_not, decide_eq_false_iff_not]
    constructor
    · rintro rfl
      exact absurd hlow (by decide)
    · rintro rfl
      exact absurd hlow (by decide)
  have hchars : f.chars ++ ['\r', '\n'] =
      decode f.name ++ ':' :: (decode f.value ++ ['\r', '\n']) := by
    simp [Field.chars]
  have hnames : ∀ d ∈ decode f.name, decide (d ≠ ':') = true := by
    intro d hd
    exact decide_eq_true (of_decide_eq_true (f.name_fieldChar d hd)).2.2
  -- A field name holds no colon, so the first colon of the line is the one that ends it.
  have htake : (decode f.name ++ ':' :: (decode f.value ++ ['\r', '\n'])).takeWhile (· ≠ ':') =
      decode f.name := by
    rw [List.takeWhile_append_of_pos hnames]
    simp
  have hdrop : (decode f.name ++ ':' :: (decode f.value ++ ['\r', '\n'])).dropWhile (· ≠ ':') =
      ':' :: (decode f.value ++ ['\r', '\n']) := by
    rw [List.dropWhile_append_of_pos hnames]
    simp
  rw [parseHeaderLines.eq_def]
  dsimp only
  rw [hchars, htake, hdrop, f.not_from]
  rw [hname]
  simp only [List.cons_append, List.head?_cons, Option.any_some, hblank, Option.some.injEq,
    hcolon, Bool.false_or, decide_false]
  rfl

theorem parseHeaderLines_fields (fs : List Field) (last : Option (List Char × List Char)) :
    parseHeaderLines last (fs.map fun f => f.chars ++ ['\r', '\n']) =
      last.toList ++ fs.map fun f =>
        (decode f.name, (decode f.value ++ ['\r', '\n']).dropWhile isBlank) := by
  -- The field that is open when a line begins is closed by it, so the lemma is about any open
  -- one.
  induction fs generalizing last with
  | nil => exact (List.append_nil _).symm
  | cons f fs ih =>
    rw [List.map_cons, parseHeaderLines_field, ih]
    rfl

theorem isHeaderLine_field (f : Field) : isHeaderLine (f.chars ++ ['\r', '\n']) = true := by
  have hchars : f.chars ++ ['\r', '\n'] =
      decode f.name ++ ':' :: (decode f.value ++ ['\r', '\n']) := by
    simp [Field.chars]
  unfold isHeaderLine
  rw [hchars, f.dropWhile_name, f.not_from]
  rfl

theorem rstrip_value (f : Field) :
    Lines.rstrip isLineEnd ((decode f.value ++ ['\r', '\n']).dropWhile isBlank) =
      (decode f.value).dropWhile isBlank := by
  have hsplit : (decode f.value ++ ['\r', '\n']).dropWhile isBlank =
      (decode f.value).dropWhile isBlank ++ ['\r', '\n'] := by
    rw [List.dropWhile_append]
    split
    · rename_i hnil
      rw [List.isEmpty_iff.mp hnil]
      rfl
    · rfl
  rw [hsplit]
  refine Lines.rstrip_append (List.all_iff_forall_prop.mp (by decide)) ?_
  intro c hc
  exact mem_decode (P := fun c => isLineEnd c = false)
    (fun b hb => isLineEnd_latin1Char (f.value_line b hb)) c
    ((List.dropWhile_sublist _).subset hc)

/-- The header block is read back as the fields that were written. -/
theorem parseHeaders_encode (fs : List Field) :
    parseHeaders ((fs.map Field.line).map (· ++ [10]) ++ [[13, 10]]) = fs.map Field.text := by
  have htake : ((fs.map fun f => f.chars ++ ['\r', '\n']) ++ [['\r', '\n']]).takeWhile
      isHeaderLine = fs.map fun f => f.chars ++ ['\r', '\n'] := by
    rw [List.takeWhile_append_of_pos]
    · exact List.append_nil _
    · intro line hline
      obtain ⟨f, -, rfl⟩ := List.mem_map.mp hline
      exact isHeaderLine_field f
  unfold parseHeaders
  rw [crackLines_fields, htake, parseHeaderLines_fields, Option.toList_none, List.nil_append,
    List.map_map]
  refine List.map_congr_left ?_
  intro f _
  show (String.ofList _, String.ofList _) = f.text
  rw [rstrip_value]
  rfl

/-! ## The round trip -/

theorem Message.encode_append (m : Message) (rest : List UInt8) :
    m.encode ++ rest = m.requestLine ++ 10 :: block m.headerLines (m.body ++ rest) := by
  simp [encode, block]

theorem Message.isHeader (m : Message) : ∀ line ∈ m.headerLines, IsHeader line := by
  intro line hline
  obtain ⟨f, -, rfl⟩ := List.mem_map.mp hline
  exact f.isHeader

/-- **A head is refused, or read back as it was sent, up to the first byte of the body.** -/
theorem parseRequest_encode {ε : Type} (m : Message) (rest : List UInt8) :
    (m.Oversized ∧ ∃ code,
      parseRequest (ε := ε) ["GET", "POST"] (m.encode ++ rest) = .failed (.refused code)) ∨
    (¬ m.Oversized ∧ parseRequest (ε := ε) ["GET", "POST"] (m.encode ++ rest) =
      .head m.head (closeConnection m.head.fields false) (m.body ++ rest)) := by
  have hstop : 10 ∉ m.requestLine := newline_notMem m.requestLine_visible
  rw [m.encode_append]
  unfold parseRequest
  dsimp only
  -- The request line comes first: 414 before a header line is looked at.
  by_cases hlong : maxLine < (m.requestLine ++ [10]).length
  · refine Or.inl ⟨Or.inl hlong, 414, ?_⟩
    rw [if_pos (Lines.readline_exceeds 10 hstop hlong)]
  · have hread : Lines.readline 10 (maxLine + 1)
        (m.requestLine ++ 10 :: block m.headerLines (m.body ++ rest)) =
          (m.requestLine ++ [10], block m.headerLines (m.body ++ rest)) := by
      refine Lines.readline_line 10 hstop ?_
      rw [List.length_append, List.length_singleton] at hlong
      omega
    rw [hread, if_neg hlong, if_neg (by simp), parseRequestLine_encode]
    have hcount : m.headerLines.length = m.fields.length := List.length_map _
    -- Then the header block, where one line too many and one byte too many are both 431.
    by_cases hbig : maxHeaders ≤ m.headerLines.length ∨
        ∃ line ∈ m.headerLines, maxLine < (line ++ [10]).length
    · refine Or.inl ⟨Or.inr (by rwa [hcount] at hbig), 431, ?_⟩
      rw [readHeaders_refuses m.isHeader hbig]
    · have hfit : ¬ m.Oversized := by
        rintro (h | h)
        · exact hlong h
        · exact hbig (by rwa [hcount])
      refine Or.inr ⟨hfit, ?_⟩
      push Not at hbig
      rw [readHeaders_fits m.isHeader hbig.1 hbig.2]
      dsimp only
      rw [Message.headerLines, parseHeaders_encode, if_pos (by cases m.method <;> decide)]
      rfl

/-! ## `int` of a decimal length -/

section Int

variable [Unicode]

theorem digitRun_digits {c : Char} {cs : List Char}
    (h : ∀ d ∈ c :: cs, isAsciiDigit d = true) :
    digitRun (c :: cs) = some ((c :: cs).map fun d => d.toNat - '0'.toNat) := by
  have hvalue : ∀ d, isAsciiDigit d = true → digitValue d = some (d.toNat - '0'.toNat) := by
    intro d hd
    unfold digitValue
    rw [if_pos (of_decide_eq_true hd)]
  induction cs generalizing c with
  | nil =>
    unfold digitRun
    rw [hvalue c (h c List.mem_cons_self)]
    rfl
  | cons d cs ih =>
    have hrest := ih fun e he => h e (List.mem_cons_of_mem _ he)
    rw [digitRun]
    · rw [hvalue c (h c List.mem_cons_self), hrest]
      rfl
    · exact List.cons_ne_nil d cs
    · rintro cs' heq
      cases heq
      exact absurd (h '_' (by simp)) (by decide)

/-- `int` reads a decimal length as the number it is, unless it has too many digits to read. -/
theorem int_of_isDecimal {text : String} {n : ℕ} (h : IsDecimal text n) :
    int text = some (n : ℤ) ∨ int text = none := by
  obtain ⟨pre, digits, post, htext, hpre, hpost, hne, hdigits, hn⟩ := h
  have hblank : ∀ c, isBlank c = true → isSpace c = true := by
    intro c hc
    rcases (Bool.or_eq_true _ _).mp hc with hc | hc
    · rw [of_decide_eq_true hc]
      decide
    · rw [of_decide_eq_true hc]
      decide
  have hspace : ∀ c ∈ digits, isSpace c = false := by
    intro c hc
    have hrange : 48 ≤ c.toNat ∧ c.toNat ≤ 57 := of_decide_eq_true (hdigits c hc)
    unfold isSpace
    simp only [Bool.or_eq_false_iff, decide_eq_false_iff_not]
    omega
  obtain ⟨c, cs, rfl⟩ := List.exists_cons_of_ne_nil hne
  have hfront : text.toList.dropWhile isSpace = (c :: cs) ++ post := by
    rw [htext, List.append_assoc,
      List.dropWhile_append_of_pos fun d hd => hblank d (hpre d hd), List.cons_append,
      List.dropWhile_cons_of_neg (by simp [hspace c List.mem_cons_self])]
  -- `int` strips white space on both sides, which leaves the digits alone.
  have hstrip : ((text.toList.dropWhile isSpace).reverse.dropWhile isSpace).reverse = c :: cs := by
    rw [hfront]
    exact Lines.rstrip_append (fun d hd => hblank d (hpost d hd)) hspace
  have hrun := digitRun_digits hdigits
  have hc := hdigits c List.mem_cons_self
  unfold int
  simp only [hstrip]
  split
  · rename_i heq
    cases heq
    exact absurd hc (by decide)
  · rename_i heq
    cases heq
    exact absurd hc (by decide)
  -- Only the digit limit of `int` can still refuse them.
  · rw [hrun, Option.bind_some]
    split
    · rw [hn]
      exact Or.inl rfl
    · exact Or.inr rfl

end Int

end HttpServer
end Python
end ObservabilityStack
