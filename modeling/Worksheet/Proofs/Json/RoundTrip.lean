import Worksheet.Proofs.Json.Lexeme

/-! # Reading what was printed

  The text of a value is read as the value (`Json.parse?_pretty`). The machine is followed along the
  text: from any state in which a value may begin, the text of a value takes it to where that value
  is complete, whatever arrays and objects are open around it and whatever follows, as long as it
  cannot be taken for a part of the value (`Json.Reads`).
-/

namespace Worksheet

namespace Json

/-! ### Values with a written form -/

/-- A value that can be written: every string in it denotes a text, and every number that is not
    written with digits only is a number as it stands. -/
inductive Printable : Json → Prop where
  | null : Printable .null
  | bool (b : Bool) : Printable (.bool b)
  | nat (n : Nat) : Printable (.nat n)
  | real {literal : Text} (h : number? literal = some (.real literal)) : Printable (.real literal)
  | str (s : Text) : Printable (.str (some s))
  | arr {items : List Json} (h : ∀ v ∈ items, Printable v) : Printable (.arr items)
  | obj {fields : List (Option Text × Json)} (hkeys : ∀ f ∈ fields, f.1.isSome)
      (h : ∀ f ∈ fields, Printable f.2) : Printable (.obj fields)

/-! ### Running the machine along a text -/

/-- The state of the machine when it has taken the tokens of a text. -/
def run? (state : ReaderState) (s : Text) : Option ReaderState :=
  (tokens? s).bind (List.foldlM step? state)

theorem run?_nil (state : ReaderState) : run? state [] = some state := by
  rw [run?, tokens?]
  rfl

/-- A token in front of a text is taken first. -/
theorem run?_of_step? {s rest : Text} {token : Token} {state next : ReaderState}
    (htokens : tokens? s = (tokens? rest).map (token :: ·))
    (hstep : step? state token = some next) : run? state s = run? next rest := by
  rw [run?, run?, htokens]
  cases tokens? rest with
  | none => rfl -- a text whose rest has no tokens has none either
  | some tokens =>
    show (step? state token).bind _ = _
    rw [hstep]
    rfl

theorem run?_blank {c : Char} (h : isBlankChar c) (state : ReaderState) (rest : Text) :
    run? state (c :: rest) = run? state rest := by
  rw [run?, run?, tokens?_blank h]

theorem run?_newLine (state : ReaderState) (level : Nat) (rest : Text) :
    run? state (newLine level ++ rest) = run? state rest := by
  have hblanks : ∀ n, run? state (List.replicate n ' ' ++ rest) = run? state rest := by
    intro n
    induction n with
    | zero => rfl
    | succ n ih => rw [List.replicate_succ, List.cons_append, run?_blank (by decide), ih]
  rw [newLine, List.cons_append, run?_blank (by decide), hblanks]

theorem run?_punctuation {c : Char} {token : Token} {state next : ReaderState}
    (h : punctuation? c = some token) (hstep : step? state token = some next) (rest : Text) :
    run? state (c :: rest) = run? next rest :=
  run?_of_step? (tokens?_punctuation h rest) hstep

theorem run?_quote {state next : ReaderState} {s rest : Text}
    (hstep : step? state (.string (some s)) = some next) :
    run? state (quote s ++ rest) = run? next rest :=
  run?_of_step? (tokens?_quote s rest) hstep

/-- What closes an array or an object stands on a line of its own. -/
theorem run?_closing {c : Char} {token : Token} {state next : ReaderState}
    (h : punctuation? c = some token) (hstep : step? state token = some next) (level : Nat)
    (rest : Text) : run? state (newLine level ++ c :: rest) = run? next rest := by
  rw [run?_newLine, run?_punctuation h hstep]

/-! ### Where values and keys may begin -/

/-- A text that no word or number goes on in. -/
def Breaks (s : Text) : Prop := ∀ c ∈ s.head?, ¬ isNumberChar c ∧ ¬ c.isAlpha

theorem breaks_cons {c : Char} (h : ¬ isNumberChar c ∧ ¬ c.isAlpha) (s : Text) :
    Breaks (c :: s) := by
  intro d hd
  cases hd
  exact h

theorem breaks_newLine (level : Nat) (s : Text) : Breaks (newLine level ++ s) :=
  breaks_cons (by decide) _

/-- A state in which a value may begin inside the given arrays and objects. An array that has no
    items yet may end there as well. -/
def Expects (state : ReaderState) (outer : List Frame) : Prop :=
  ∀ token, token ≠ .closeList → step? state token = begin? outer token

theorem expects_value (outer : List Frame) : Expects (.value outer) outer :=
  fun _ _ => rfl

theorem expects_firstItem (outer : List Frame) :
    Expects (.firstItem outer) (.list [] :: outer) := by
  intro token h
  cases token with
  | closeList => exact absurd rfl h
  | _ => rfl

/-- A state in which the key of a field may begin, behind the given fields. -/
def ExpectsKey (state : ReaderState) (before : List (Option Text × Json)) (outer : List Frame) :
    Prop :=
  ∀ key, step? state (.string key) = some (.colon before key outer)

/-- The text of a value takes the machine to where the value is complete. -/
def Reads (v : Json) : Prop :=
  ∀ level state outer rest, Expects state outer → Breaks rest →
    run? state (pretty level v ++ rest) = run? (complete v outer) rest

theorem run?_scalar {literal rest : Text} {v : Json} {state : ReaderState} {outer : List Frame}
    (htokens : tokens? (literal ++ rest) = (tokens? rest).map (.scalar v :: ·))
    (hstate : Expects state outer) :
    run? state (literal ++ rest) = run? (complete v outer) rest :=
  run?_of_step? htokens (hstate _ nofun)

/-! ### Arrays -/

theorem run?_prettyItems {items : List Json} (hne : items ≠ []) (hitems : ∀ v ∈ items, Reads v)
    (level : Nat) {state : ReaderState} {before : List Json} {outer : List Frame}
    (hstate : Expects state (.list before :: outer)) {rest : Text} (hrest : Breaks rest) :
    run? state (prettyItems level items ++ rest) =
      run? (.afterItem (items.reverse ++ before) outer) rest := by
  -- the machine keeps the items that it has read, the latest first
  induction items generalizing state before with
  | nil => exact absurd rfl hne
  | cons v items ih =>
    have hv := hitems v List.mem_cons_self
    cases items with
    | nil =>
      rw [prettyItems, List.append_assoc, run?_newLine]
      exact hv level state _ rest hstate hrest
    | cons w items =>
      have hcomma : step? (.afterItem (v :: before) outer) .comma =
          some (.value (.list (v :: before) :: outer)) := rfl
      have hothers := ih (List.cons_ne_nil _ _) (fun x hx => hitems x (List.mem_cons_of_mem v hx))
        (expects_value (.list (v :: before) :: outer))
      rw [prettyItems, List.append_assoc, List.append_assoc, run?_newLine, List.cons_append,
        hv level state _ _ hstate (breaks_cons (by decide) _), complete,
        run?_punctuation rfl hcomma, hothers, List.reverse_cons (a := v), List.append_assoc]
      · rfl
      · exact List.cons_ne_nil _ _

theorem reads_arr {items : List Json} (h : ∀ v ∈ items, Reads v) : Reads (.arr items) := by
  intro level state outer rest hstate _
  have hopen : step? state .openList = some (.firstItem outer) := hstate _ nofun
  cases items with
  | nil =>
    have hclose : step? (.firstItem outer) .closeList = some (complete (.arr []) outer) := rfl
    show run? state ('[' :: ']' :: rest) = _
    rw [run?_punctuation rfl hopen, run?_punctuation rfl hclose]
  | cons v items =>
    have hclose : step? (.afterItem (v :: items).reverse outer) .closeList =
        some (complete (.arr (v :: items)) outer) := by
      rw [step?, List.reverse_reverse]
    have htext : pretty level (.arr (v :: items)) ++ rest =
        '[' :: (prettyItems (level + 1) (v :: items) ++ (newLine level ++ ']' :: rest)) := by
      simp [pretty]
    rw [htext, run?_punctuation rfl hopen,
      run?_prettyItems (List.cons_ne_nil _ _) h (level + 1) (expects_firstItem outer)
        (breaks_newLine level _),
      List.append_nil, run?_closing rfl hclose]

/-! ### Objects -/

theorem run?_field {key : Option Text} (hkey : key.isSome) {v : Json} (hv : Reads v) (level : Nat)
    {state : ReaderState} {before : List (Option Text × Json)} {outer : List Frame}
    (hstate : ExpectsKey state before outer) {rest : Text} (hrest : Breaks rest) :
    run? state (newLine level ++ quote (key.getD []) ++ ':' :: ' ' :: pretty level v ++ rest) =
      run? (.afterField ((key, v) :: before) outer) rest := by
  obtain ⟨key, rfl⟩ := Option.isSome_iff_exists.1 hkey
  have hcolon : step? (.colon before (some key) outer) .colon =
      some (.value (.object before (some key) :: outer)) := rfl
  rw [List.append_assoc, List.append_assoc, run?_newLine, Option.getD_some,
    run?_quote (hstate (some key)), List.cons_append, run?_punctuation rfl hcolon,
    List.cons_append, run?_blank (by decide), hv level _ _ _ (expects_value _) hrest]
  rfl

theorem run?_prettyFields {fields : List (Option Text × Json)} (hne : fields ≠ [])
    (hkeys : ∀ f ∈ fields, f.1.isSome) (hvalues : ∀ f ∈ fields, Reads f.2) (level : Nat)
    {state : ReaderState} {before : List (Option Text × Json)} {outer : List Frame}
    (hstate : ExpectsKey state before outer) {rest : Text} (hrest : Breaks rest) :
    run? state (prettyFields level fields ++ rest) =
      run? (.afterField (fields.reverse ++ before) outer) rest := by
  induction fields generalizing state before with
  | nil => exact absurd rfl hne
  | cons f fields ih =>
    obtain ⟨key, v⟩ := f
    have hkey := hkeys _ List.mem_cons_self
    have hv := hvalues _ List.mem_cons_self
    cases fields with
    | nil =>
      rw [prettyFields]
      exact run?_field hkey hv level hstate hrest
    | cons g fields =>
      have hcomma : step? (.afterField ((key, v) :: before) outer) .comma =
          some (.key ((key, v) :: before) outer) := rfl
      have hothers := ih (List.cons_ne_nil _ _) (fun f hf => hkeys f (List.mem_cons_of_mem _ hf))
        (fun f hf => hvalues f (List.mem_cons_of_mem _ hf))
        (show ExpectsKey (.key ((key, v) :: before) outer) _ _ from fun _ => rfl)
      rw [prettyFields, List.append_assoc, List.cons_append,
        run?_field hkey hv level hstate (breaks_cons (by decide) _), run?_punctuation rfl hcomma,
        hothers, List.reverse_cons (a := (key, v)), List.append_assoc]
      · rfl
      · exact List.cons_ne_nil _ _

theorem reads_obj {fields : List (Option Text × Json)} (hkeys : ∀ f ∈ fields, f.1.isSome)
    (h : ∀ f ∈ fields, Reads f.2) : Reads (.obj fields) := by
  intro level state outer rest hstate _
  have hopen : step? state .openObject = some (.firstKey outer) := hstate _ nofun
  cases fields with
  | nil =>
    have hclose : step? (.firstKey outer) .closeObject = some (complete (.obj []) outer) := rfl
    show run? state ('\x7b' :: '\x7d' :: rest) = _
    rw [run?_punctuation rfl hopen, run?_punctuation rfl hclose]
  | cons f fields =>
    have hclose : step? (.afterField (f :: fields).reverse outer) .closeObject =
        some (complete (.obj (f :: fields)) outer) := by
      rw [step?, List.reverse_reverse]
    have htext : pretty level (.obj (f :: fields)) ++ rest =
        '\x7b' :: (prettyFields (level + 1) (f :: fields) ++
          (newLine level ++ '\x7d' :: rest)) := by
      simp [pretty]
    rw [htext, run?_punctuation rfl hopen,
      run?_prettyFields (List.cons_ne_nil _ _) hkeys h (level + 1) (fun _ => rfl)
        (breaks_newLine level _),
      List.append_nil, run?_closing rfl hclose]

/-! ### The round trip -/

theorem Printable.reads {v : Json} (h : Printable v) : Reads v := by
  induction h with
  | null =>
    intro level state outer rest hstate hrest
    have hword : word? "null".toList = some .null := rfl
    rw [pretty]
    exact run?_scalar (tokens?_word hword fun c hc => (hrest c hc).2) hstate
  | bool b =>
    intro level state outer rest hstate hrest
    have hword : word? (if b then "true".toList else "false".toList) = some (.bool b) := by
      cases b <;> rfl
    rw [pretty]
    exact run?_scalar (tokens?_word hword fun c hc => (hrest c hc).2) hstate
  | nat n =>
    intro level state outer rest hstate hrest
    rw [pretty]
    exact run?_scalar (tokens?_number (number?_decimal n) fun c hc => (hrest c hc).1) hstate
  | real hreal =>
    intro level state outer rest hstate hrest
    rw [pretty]
    exact run?_scalar (tokens?_number hreal fun c hc => (hrest c hc).1) hstate
  | str s =>
    intro level state outer rest hstate hrest
    rw [pretty]
    exact run?_quote (hstate _ nofun)
  | arr _ ih => exact reads_arr ih
  | obj hkeys _ ih => exact reads_obj hkeys ih

/-- The text of a value is read as the value, however far it is indented. -/
theorem parse?_pretty {v : Json} (h : Printable v) (level : Nat) :
    parse? (pretty level v) = some v := by
  -- nothing is open around the value, and nothing follows it
  have hrun := h.reads level (.value []) [] [] (expects_value []) nofun
  rw [List.append_nil, run?_nil, run?, complete] at hrun
  rw [parse?]
  cases htokens : tokens? (pretty level v) with
  | none =>
    rw [htokens] at hrun
    exact nomatch hrun
  | some tokens =>
    rw [htokens, Option.bind_some] at hrun
    simp [hrun]

end Json

end Worksheet
