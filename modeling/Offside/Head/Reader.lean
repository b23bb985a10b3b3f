/-
  Offside.Head.Reader
  ───────────────────
  Reading the head of a tag line.

  The readers take the characters still to be read and give back what they
  read together with the rest.  A reader that fails says how many characters
  were left at the place of the fault; `Head.read` turns that into an offset
  from the start of the line.  Every reader that gives a rest gives one that
  is no longer than what it was given (`length_le` lemmas), which is why the
  loops end.
-/
import Offside.Head.Basic

namespace Offside.Head

open Text

/-! ## §1. Faults inside a reader. -/

/-- A cause, met with `left` characters still to be read. -/
structure Stop where
  cause : Cause
  left : Nat
  deriving Repr, DecidableEq

/-- The result of a reader: what was read and the rest. -/
abbrev Read (α : Type) := Except Stop (α × List Char)

/-- The rest after spaces and tabs. -/
def skipGap (cs : List Char) : List Char := cs.dropWhile isGap

theorem length_skipGap_le (cs : List Char) : (skipGap cs).length ≤ cs.length :=
  (List.dropWhile_sublist _).length_le

/-! ## §2. Names. -/

/-- The longest run of name characters.  It must not be empty, or `missing`
is the cause, and not over the limit. -/
def name (missing : Cause) (cs : List Char) : Read String :=
  let run := cs.takeWhile isNameChar
  if maxNameLength < run.length then .error ⟨.nameTooLong, cs.length⟩
  else if run.isEmpty then .error ⟨missing, cs.length⟩
  else .ok (String.ofList run, cs.dropWhile isNameChar)

theorem name_length_le {missing : Cause} {cs rest : List Char} {s : String}
    (h : name missing cs = .ok (s, rest)) : rest.length ≤ cs.length := by
  unfold name at h
  simp only at h
  split at h
  · simp at h
  · split at h
    · simp at h
    · simp only [Except.ok.injEq, Prod.mk.injEq] at h
      rw [← h.2]
      exact (List.dropWhile_sublist _).length_le

/-- Class names, each after a dot, added to those already read. -/
def classes (done : List String) (cs : List Char) : Read (List String) :=
  match cs with
  | '.' :: cs' =>
    match _h : name .classNameMissing cs' with
    | .error stop => .error stop
    | .ok (s, rest) => classes (s :: done) rest
  | cs => .ok (done.reverse, cs)
termination_by cs.length
decreasing_by
  have := name_length_le _h
  simp only [List.length_cons]
  omega

/-- The id after a hash sign, if there is one. -/
def id? (cs : List Char) : Read (Option String) :=
  match cs with
  | '#' :: cs' => (name .idMissing cs').map fun p => (some p.1, p.2)
  | cs => .ok (none, cs)

/-! ## §3. Quoted strings. -/

/-- The inside of a string up to its closing mark, of which at most `room`
more characters may come.  A backslash takes the next character as it is.
`start` is how many characters were left where the string began. -/
def stringBody (mark : Char) (start : Nat) : Nat → List Char → Read (List Char)
  | _, [] => .error ⟨.stringNotClosed mark, start⟩
  | room, c :: cs =>
    if c == mark then .ok ([], cs)
    else
      match room with
      | 0 => .error ⟨.stringTooLong, start⟩
      | room + 1 =>
        if c == '\\' then
          match cs with
          | [] => .error ⟨.escapeAtEnd, 0⟩
          | d :: ds => (stringBody mark start room ds).map fun p => (d :: p.1, p.2)
        else (stringBody mark start room cs).map fun p => (c :: p.1, p.2)

/-- A string, from after its opening mark. -/
def string (mark : Char) (cs : List Char) : Read String :=
  (stringBody mark (cs.length + 1) maxStringLength cs).map fun p =>
    (String.ofList p.1, p.2)

theorem stringBody_length_le {mark : Char} {start room : Nat} {cs : List Char} :
    ∀ {body rest : List Char},
      stringBody mark start room cs = .ok (body, rest) → rest.length ≤ cs.length := by
  fun_induction stringBody mark start room cs with
  | case1 => simp
  | case2 room c cs hmark => simp
  | case3 c cs hmark => simp
  | case4 c hmark room hesc => simp
  | case5 c hmark room hesc d ds ih =>
    intro body rest h
    cases hb : stringBody mark start room ds with
    | error e => simp [hb, Except.map] at h
    | ok p =>
      simp only [hb, Except.map, Except.ok.injEq, Prod.mk.injEq] at h
      have := ih hb
      simp only [List.length_cons, ← h.2]
      omega
  | case6 c cs hmark room hesc ih =>
    intro body rest h
    cases hb : stringBody mark start room cs with
    | error e => simp [hb, Except.map] at h
    | ok p =>
      simp only [hb, Except.map, Except.ok.injEq, Prod.mk.injEq] at h
      have := ih hb
      simp only [List.length_cons, ← h.2]
      omega

theorem string_length_le {mark : Char} {cs rest : List Char} {s : String}
    (h : string mark cs = .ok (s, rest)) : rest.length ≤ cs.length := by
  unfold string at h
  cases hb : stringBody mark (cs.length + 1) maxStringLength cs with
  | error e => simp [hb, Except.map] at h
  | ok p =>
    simp only [hb, Except.map, Except.ok.injEq, Prod.mk.injEq] at h
    rw [← h.2]
    exact stringBody_length_le hb

/-! ## §4. Attributes. -/

/-- Whether a character belongs to a value without quotation marks. -/
def isBareChar (c : Char) : Bool := !isGap c && c != ']'

/-- The value of an attribute: a string, or a run of characters up to a gap
or the end of the block, which may be empty. -/
def value (cs : List Char) : Read String :=
  match cs with
  | c :: cs' =>
    if isQuote c then string c cs'
    else .ok (String.ofList (cs.takeWhile isBareChar), cs.dropWhile isBareChar)
  | [] => .ok ("", [])

theorem value_length_le {cs rest : List Char} {s : String}
    (h : value cs = .ok (s, rest)) : rest.length ≤ cs.length := by
  unfold value at h
  split at h
  · rename_i c cs'
    split at h
    · have := string_length_le h
      simp only [List.length_cons]
      omega
    · simp only [Except.ok.injEq, Prod.mk.injEq] at h
      rw [← h.2]
      exact (List.dropWhile_sublist _).length_le
  · simp only [Except.ok.injEq, Prod.mk.injEq] at h
    simp [← h.2]

/-- What follows the name of an attribute: an equals sign and a value, or
neither. -/
def assigned (cs : List Char) : Read AttributeValue :=
  match skipGap cs with
  | '=' :: rest => (value (skipGap rest)).map fun p => (.text p.1, p.2)
  | rest => .ok (.on, rest)

theorem assigned_length_le {cs rest : List Char} {v : AttributeValue}
    (h : assigned cs = .ok (v, rest)) : rest.length ≤ cs.length := by
  have hgap := length_skipGap_le cs
  unfold assigned at h
  split at h
  · rename_i tail heq
    cases hv : value (skipGap tail) with
    | error e => simp [hv, Except.map] at h
    | ok p =>
      simp only [hv, Except.map, Except.ok.injEq, Prod.mk.injEq] at h
      have h1 := value_length_le hv
      have h2 := length_skipGap_le tail
      rw [heq, List.length_cons] at hgap
      rw [← h.2]
      omega
  · simp only [Except.ok.injEq, Prod.mk.injEq] at h
    rw [← h.2]
    exact hgap

/-- A name that was read takes at least one character. -/
theorem name_length_lt {missing : Cause} {cs rest : List Char} {s : String}
    (h : name missing cs = .ok (s, rest)) : rest.length < cs.length := by
  unfold name at h
  simp only at h
  split at h
  · simp at h
  · split at h
    · simp at h
    · rename_i hne
      simp only [Except.ok.injEq, Prod.mk.injEq] at h
      rw [← h.2]
      have hsplit : (cs.takeWhile isNameChar).length
          + (cs.dropWhile isNameChar).length = cs.length := by
        rw [← List.length_append, List.takeWhile_append_dropWhile]
      have : 0 < (cs.takeWhile isNameChar).length := by
        cases hrun : cs.takeWhile isNameChar with
        | nil => simp [hrun] at hne
        | cons a as => simp
      omega

/-- The attributes of a block, from after its opening bracket, put in front
of those already read; `count` of them belong to this block. -/
def block (count : Nat) (done : List Attribute) (cs : List Char) :
    Read (List Attribute) :=
  match _hgap : skipGap cs with
  | [] => .error ⟨.blockNotClosed, 0⟩
  | ']' :: rest => .ok (done, rest)
  | c :: cs' =>
    match _hname : name .attributeNameMissing (c :: cs') with
    | .error stop => .error stop
    | .ok (s, afterName) =>
      if maxBlockAttributes ≤ count then
        .error ⟨.tooManyAttributes, cs'.length + 1⟩
      else
        match _hval : assigned afterName with
        | .error stop => .error stop
        | .ok (v, rest) => block (count + 1) (⟨s, v⟩ :: done) rest
termination_by cs.length
decreasing_by
  have h1 := length_skipGap_le cs
  rw [_hgap] at h1
  have h2 := name_length_lt _hname
  have h3 := assigned_length_le _hval
  omega

theorem block_length_le {count : Nat} {done : List Attribute} {cs : List Char} :
    ∀ {attrs : List Attribute} {rest : List Char},
      block count done cs = .ok (attrs, rest) → rest.length ≤ cs.length := by
  fun_induction block count done cs with
  | case1 => simp
  | case2 count done cs rest hgap =>
    intro attrs rest' h
    have h1 := length_skipGap_le cs
    rw [hgap, List.length_cons] at h1
    simp only [Except.ok.injEq, Prod.mk.injEq] at h
    rw [← h.2]
    omega
  | case3 => simp
  | case4 => simp
  | case5 => simp
  | case6 count done cs c cs' _ hgap s afterName hname hcount v rest hval ih =>
    intro attrs rest' h
    have h1 := length_skipGap_le cs
    rw [hgap] at h1
    have h2 := name_length_lt hname
    have h3 := assigned_length_le hval
    have h4 := ih h
    omega

/-- All attribute blocks, with the gaps after them; the attributes come out
in the order in which they stand. -/
def blocks (done : List Attribute) (cs : List Char) : Read (List Attribute) :=
  match cs with
  | '[' :: cs' =>
    match _h : block 0 done cs' with
    | .error stop => .error stop
    | .ok (attrs, rest) => blocks attrs (skipGap rest)
  | cs => .ok (done.reverse, cs)
termination_by cs.length
decreasing_by
  have h1 := block_length_le _h
  have h2 := length_skipGap_le rest
  simp only [List.length_cons]
  omega

/-! ## §5. Content. -/

/-- The content of a tag line, from where it starts. -/
def content (cs : List Char) : Except Stop Tail :=
  match cs with
  | [] => .ok .none
  | '|' :: rest =>
    let text := trim rest
    .ok (if text.isEmpty then .block else .inline (String.ofList (unquote text)))
  | '"' :: rest =>
    match string '"' rest with
    | .error stop => .error stop
    | .ok (s, after) =>
      match skipGap after with
      | [] => .ok (.inline s)
      | left => .error ⟨.textAfterString, left.length⟩
  | cs => .ok (.inline (String.ofList (unquote (trim cs))))

/-! ## §6. The whole head. -/

/-- What stands after the tag: nothing, or a colon and the content.  With
the content comes the number of characters left where it starts. -/
def ending (cs : List Char) : Except Stop (Tail × Nat) :=
  match skipGap cs with
  | [] => .ok (.none, 0)
  | ':' :: rest =>
    let start := skipGap rest
    (content start).map fun t => (t, start.length)
  | left => .error ⟨.colonMissing, left.length⟩

/-- The tag and what stands after it. -/
def parts (cs : List Char) : Except Stop (Tag × Tail × Nat) := do
  let (tagName, cs) ← name .tagNameMissing cs
  let (classNames, cs) ← classes [] cs
  let (tagId, cs) ← id? cs
  let (attributes, cs) ← blocks [] cs
  let (tail, left) ← ending cs
  return (⟨tagName, classNames, tagId, attributes⟩, tail, left)

/-- **The head reader**: the head that a text is, or the fault with its
offset in the text. -/
def read (text : List Char) : Except HeadFault Head :=
  match parts text with
  | .error stop => .error ⟨stop.cause, text.length - stop.left⟩
  | .ok (tag, tail, left) => .ok ⟨tag, tail, text.length - left⟩

end Offside.Head
