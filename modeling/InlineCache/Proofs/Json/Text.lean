import InlineCache.Json.Text
import InlineCache.Proofs.Text.Index

namespace InlineCache

namespace Json

/-- The digits of an escape are read as the number of the control that it stands for. -/
theorem readDigits_control {n : Nat} (hn : n < 0x20) :
    Text.readDigits 16 0x10000 ['0', '0', Nat.digitChar (n / 16), Nat.digitChar (n % 16)] 0 = some n := by
  have hall : ∀ n < 0x20, Text.readDigits 16 0x10000
      ['0', '0', Nat.digitChar (n / 16), Nat.digitChar (n % 16)] 0 = some n := by decide
  exact hall n hn

/-- A part of a string that is a character: the character itself, or the number of a control. -/
inductive Piece.Stands (c : Char) : Piece → Prop where
  | char : Stands c (.char c)
  | unit (hcontrol : c.toNat < 0x20) : Stands c (.unit c.toNat)

private theorem pieceText?_cons {c : Char} {part : Piece} (hstands : part.Stands c)
    (parts : List Piece) : pieceText? (part :: parts) = (pieceText? parts).map (c :: ·) := by
  cases hstands with
  | char => rfl
  | unit hcontrol =>
    have hsingle : ¬ (0xd800 ≤ c.toNat ∧ c.toNat < 0xe000) := by omega
    have hhigh : ¬ (0xd800 ≤ c.toNat ∧ c.toNat < 0xdc00) := by omega
    have hlow : ¬ (0xdc00 ≤ c.toNat ∧ c.toNat < 0xe000) := by omega
    rcases parts with _ | ⟨_ | low, parts⟩ <;>
      simp only [pieceText?, if_neg hsingle, if_neg hhigh, if_neg hlow, Char.ofNat_toNat]

private theorem pieces?_simpleEscape {e c : Char} (hescape : simpleEscape? e = some c) (s : List Char) :
    pieces? ('\\' :: e :: s) = (pieces? s).map fun (parts, rest) => (.char c :: parts, rest) := by
  have hunit : e ≠ 'u' := by
    rintro rfl
    cases hescape
  rw [pieces?.eq_4 _ _ fun _ _ _ _ _ heq => absurd heq hunit, hescape]
  cases pieces? s <;> rfl

/-- A character that is written is read, as one part of the string. -/
theorem pieces?_escapeChar (c : Char) : ∃ part : Piece, part.Stands c ∧ ∀ s : List Char,
    pieces? (escapeChar c ++ s) = (pieces? s).map fun (parts, rest) => (part :: parts, rest) := by
  unfold escapeChar
  split
  · exact ⟨_, .char, pieces?_simpleEscape rfl⟩
  · exact ⟨_, .char, pieces?_simpleEscape rfl⟩
  · exact ⟨_, .char, pieces?_simpleEscape rfl⟩
  · exact ⟨_, .char, pieces?_simpleEscape rfl⟩
  · exact ⟨_, .char, pieces?_simpleEscape rfl⟩
  · exact ⟨_, .char, pieces?_simpleEscape rfl⟩
  · exact ⟨_, .char, pieces?_simpleEscape rfl⟩
  · next hquote hbackslash _ _ _ _ _ =>
    split
    · next hcontrol =>
      refine ⟨_, .unit hcontrol, fun s => ?_⟩
      simp only [List.cons_append, List.nil_append, pieces?.eq_3, readDigits_control hcontrol]
      cases pieces? s <;> rfl
    · next hplain =>
      refine ⟨_, .char, fun s => ?_⟩
      rw [List.singleton_append, pieces?.eq_5 c s hquote (fun _ _ _ _ _ heq => absurd heq hbackslash)
        (fun _ _ heq => absurd heq hbackslash), if_neg hplain]
      cases pieces? s <;> rfl

/-- A string that is written is read, up to its closing quote. -/
theorem pieces?_escape (text rest : List Char) : ∃ parts, pieceText? parts = some text ∧
    pieces? (text.flatMap escapeChar ++ '"' :: rest) = some (parts, rest) := by
  induction text with
  | nil => exact ⟨[], rfl, rfl⟩
  | cons c text ih =>
    obtain ⟨parts, htext, hparts⟩ := ih
    obtain ⟨part, hstands, hpart⟩ := pieces?_escapeChar c
    refine ⟨part :: parts, by rw [pieceText?_cons hstands, htext]; rfl, ?_⟩
    rw [List.flatMap_cons, List.append_assoc, hpart, hparts]
    rfl

private theorem parseString?_render (s : String) (rest : List Char) :
    parseString? (s.toList.flatMap escapeChar ++ '"' :: rest) = some (some s, rest) := by
  obtain ⟨parts, htext, hparts⟩ := pieces?_escape s.toList rest
  simp only [parseString?, hparts, Option.bind_eq_bind, Option.bind_some, htext, Option.map_some,
    String.ofList_toList]
  rfl

/-- What may follow a value: nothing, or a mark that goes on with what the value is in. -/
def Stops (rest : List Char) : Prop := ∀ c ∈ rest.head?, c = ',' ∨ c = ']' ∨ c = '\x7d'

private theorem Stops.not_isDigit {rest : List Char} (hrest : Stops rest) :
    ∀ c ∈ rest.head?, c.isDigit = false := by
  intro c hc
  rcases hrest c hc with rfl | rfl | rfl <;> rfl

private theorem takeDigits?_append {digits rest : List Char} (hdigits : ∀ c ∈ digits, c.isDigit = true)
    (hne : digits ≠ []) (hrest : Stops rest) : takeDigits? (digits ++ rest) = some (digits, rest) := by
  have hstop : rest.takeWhile Char.isDigit = [] ∧ rest.dropWhile Char.isDigit = rest := by
    cases rest with
    | nil => exact ⟨rfl, rfl⟩
    | cons c rest =>
      have hc : c.isDigit = false := hrest.not_isDigit c rfl
      simp [hc]
  rw [takeDigits?, List.takeWhile_append_of_pos hdigits, List.dropWhile_append_of_pos hdigits, hstop.1,
    hstop.2, List.append_nil]
  cases digits with
  | nil => exact absurd rfl hne
  | cons c digits => rfl

private theorem numberTail?_of_stops {rest : List Char} (hrest : Stops rest) :
    numberTail? rest = some (false, rest) := by
  cases rest with
  | nil => rfl
  | cons c rest => rcases hrest c rfl with rfl | rfl | rfl <;> rfl

private theorem decimalValue_toDigits (n : Nat) : Text.decimalValue (Nat.toDigits 10 n) = n := by
  rw [Text.decimalValue, Positional.ofDigits_eq_foldl]
  induction n using Nat.strongRecOn with
  | ind n ih =>
    have hdigit {d : Nat} (hd : d < 10) : (Nat.digitChar d).toNat - 48 = d := by
      rw [Nat.toNat_digitChar_of_lt_ten hd, Nat.add_sub_cancel_left]
    by_cases hlt : n < 10
    · rw [Nat.toDigits_of_lt_base hlt]
      simp [Positional.appendDigit, hdigit hlt]
    · have hdiv : n / 10 < n := by omega
      have hsum : n / 10 * 10 + n % 10 = n := by omega
      rw [Nat.toDigits_of_base_le (by decide) (by omega), List.map_append, List.foldl_append, ih _ hdiv]
      simp [Positional.appendDigit, hdigit (Nat.mod_lt n (by decide)), hsum]

/-- The digits of a number are a number without a leading zero. -/
theorem parse_digits (n : Nat) {rest : List Char} (hrest : Stops rest) :
    takeDigits? (Nat.toDigits 10 n ++ rest) = some (Nat.toDigits 10 n, rest) ∧
      ¬ ((Nat.toDigits 10 n).head? = some '0' ∧ (Nat.toDigits 10 n).length ≠ 1) := by
  refine ⟨takeDigits?_append (fun c hc => Nat.isDigit_of_mem_toDigits (by decide) (by decide) hc)
    Nat.toDigits_ne_nil hrest, ?_⟩
  rintro ⟨hzero, hlength⟩
  rcases Nat.eq_zero_or_pos n with rfl | hpos
  · exact hlength rfl
  · exact Text.head?_toDigits_ne hpos hzero

private theorem toList_natural (n : Nat) : (toString (n : Int)).toList = Nat.toDigits 10 n :=
    Nat.toList_repr

private theorem toList_negative (n : Nat) :
    (toString (Int.negSucc n)).toList = '-' :: Nat.toDigits 10 (n + 1) := by
  have htext : toString (Int.negSucc n) = "-" ++ Nat.repr (n + 1) := rfl
  rw [htext, String.toList_append, Nat.toList_repr]
  rfl

/-- A number that is written is read. -/
theorem parseNumber?_integer (n : Int) {rest : List Char} (hrest : Stops rest) :
    parseNumber? ((toString n).toList ++ rest) = some (.integer n, rest) := by
  cases n with
  | ofNat n =>
    have hsign (tail : List Char) : Nat.toDigits 10 n ++ rest ≠ '-' :: tail := by
      intro heq
      obtain ⟨c, digits, hdigits⟩ := List.exists_cons_of_ne_nil (Nat.toDigits_ne_nil (n := n) (b := 10))
      rw [hdigits] at heq
      cases heq
      exact absurd (by rw [hdigits]; exact List.mem_cons_self) (Text.notMem_toDigits (c := '-') rfl n)
    obtain ⟨htake, hzero⟩ := parse_digits n hrest
    rw [Int.ofNat_eq_natCast, toList_natural, parseNumber?.eq_2 _ hsign]
    simp [htake, hzero, numberTail?_of_stops hrest, decimalValue_toDigits]
  | negSucc n =>
    obtain ⟨htake, hzero⟩ := parse_digits (n + 1) hrest
    rw [toList_negative, List.cons_append, parseNumber?.eq_1]
    simp [htake, hzero, numberTail?_of_stops hrest, decimalValue_toDigits, Int.negSucc_eq]

/-- A value without strings that are no text, and without numbers that have no value. -/
inductive Plain : Json → Prop where
  | null : Plain .null
  | bool (b : Bool) : Plain (.bool b)
  | integer (n : Int) : Plain (.integer n)
  | text (s : String) : Plain (.text s)
  | array {items : List Json} (hitems : ∀ j ∈ items, Plain j) : Plain (.array items)
  | record {members : List (String × Json)} (hmembers : ∀ m ∈ members, Plain m.2) : Plain (.record members)

/-- A number begins with a sign or a digit, and with no blank. -/
theorem toList_integer_cons (n : Int) : ∃ c s, (toString n).toList = c :: s ∧ isSpace c = false ∧
    ∀ d : Char, d ≠ '-' → d.isDigit = false → c ≠ d := by
  suffices hcons : ∃ c s, (toString n).toList = c :: s ∧
      ∀ d : Char, d ≠ '-' → d.isDigit = false → c ≠ d by
    obtain ⟨c, s, hcons, hne⟩ := hcons
    refine ⟨c, s, hcons, ?_, hne⟩
    simp [isSpace, hne ' ' (by decide) rfl, hne '\t' (by decide) rfl, hne '\n' (by decide) rfl,
      hne '\r' (by decide) rfl]
  cases n with
  | ofNat n =>
    obtain ⟨c, digits, hdigits⟩ := List.exists_cons_of_ne_nil (Nat.toDigits_ne_nil (n := n) (b := 10))
    refine ⟨c, digits, (toList_natural n).trans hdigits, fun d _ hdigit heq => ?_⟩
    exact Text.notMem_toDigits hdigit n (by rw [hdigits, heq]; exact List.mem_cons_self)
  | negSucc n => exact ⟨_, _, toList_negative n, fun d hd _ heq => hd heq.symm⟩

/-- The texts of values begin with no blank, and not with the end of what they are in. -/
theorem renderChars_cons {j : Json} (hj : j.Plain) :
    ∃ c s, renderChars j = c :: s ∧ isSpace c = false ∧ c ≠ ']' := by
  cases hj with
  | integer n =>
    obtain ⟨c, s, hcons, hspace, hne⟩ := toList_integer_cons n
    exact ⟨c, s, by rw [renderChars, hcons], hspace, hne _ (by decide) rfl⟩
  | bool b => cases b <;> exact ⟨_, _, rfl, rfl, by decide⟩
  | _ => exact ⟨_, _, rfl, rfl, by decide⟩

private theorem skipSpace_cons {c : Char} (hc : isSpace c = false) (s : List Char) :
    skipSpace (c :: s) = c :: s := by
  simp [skipSpace, hc]

/-- A value whose text is read within every amount of fuel that is twice as large. -/
def Reads (j : Json) : Prop :=
  ∀ (fuel : Nat) (rest : List Char), 2 * (renderChars j).length ≤ fuel → Stops rest →
    parseValue? fuel (renderChars j ++ rest) = some (j, rest)

/-- The text of a value is not empty, so there is fuel to read it. -/
theorem Plain.reads_of_succ {j : Json} (hj : j.Plain)
    (hreads : ∀ (fuel : Nat) (rest : List Char), 2 * (renderChars j).length ≤ fuel + 1 → Stops rest →
      parseValue? (fuel + 1) (renderChars j ++ rest) = some (j, rest)) : j.Reads := by
  intro fuel rest hfuel hrest
  cases fuel with
  | zero =>
    obtain ⟨c, s, hcons, -⟩ := renderChars_cons hj
    rw [hcons] at hfuel
    cases hfuel
  | succ fuel => exact hreads fuel rest hfuel hrest

private theorem Stops.cons {c : Char} (hc : c = ',' ∨ c = ']' ∨ c = '\x7d') (rest : List Char) :
    Stops (c :: rest) := by
  intro d hd
  cases hd
  exact hc

private theorem commaSeparated_cons (s : List Char) {rest : List (List Char)} (hne : rest ≠ []) :
    commaSeparated (s :: rest) = s ++ ',' :: commaSeparated rest := by
  cases rest with
  | nil => exact absurd rfl hne
  | cons t rest => rfl

private theorem commaSeparated_append (s : List Char) (rest : List (List Char)) :
    ∃ t, commaSeparated (s :: rest) = s ++ t := by
  cases rest with
  | nil => exact ⟨[], (List.append_nil s).symm⟩
  | cons t rest => exact ⟨_, rfl⟩

private theorem renderItems_ne_nil {items : List Json} (hne : items ≠ []) : renderItems items ≠ [] := by
  cases items with
  | nil => exact absurd rfl hne
  | cons j items => simp [renderItems]

/-- Items that are written are read, up to the end of their array. -/
theorem parseItems?_render {items : List Json} (hne : items ≠ []) (hreads : ∀ j ∈ items, j.Reads)
    {fuel : Nat} {rest : List Char} (hfuel : 2 * (commaSeparated (renderItems items)).length < fuel) :
    parseItems? fuel (commaSeparated (renderItems items) ++ ']' :: rest) = some (items, rest) := by
  induction items generalizing fuel with
  | nil => exact absurd rfl hne
  | cons j items ih =>
    obtain ⟨fuel, rfl⟩ := Nat.exists_eq_succ_of_ne_zero (Nat.ne_zero_of_lt hfuel)
    have hj := hreads j List.mem_cons_self
    -- one step of fuel is for the item, and the comma after it pays for the step of the next one
    rw [parseItems?]
    by_cases hlast : items = []
    · subst hlast
      simp only [renderItems, commaSeparated] at hfuel ⊢
      rw [hj fuel _ (Nat.le_of_lt_succ hfuel) (.cons (.inr (.inl rfl)) rest)]
      rfl
    · have hitems : ∀ j ∈ items, j.Reads := fun j hmem => hreads j (List.mem_cons_of_mem _ hmem)
      rw [renderItems, commaSeparated_cons _ (renderItems_ne_nil hlast)] at hfuel ⊢
      rw [List.length_append, List.length_cons] at hfuel
      have hmore : parseItems? fuel (commaSeparated (renderItems items) ++ ']' :: rest) =
          some (items, rest) := ih hlast hitems (by omega)
      rw [List.append_assoc, List.cons_append, hj fuel _ (by omega) (.cons (.inl rfl) _)]
      simp only [Option.bind_eq_bind, Option.bind_some, skipSpace_cons (c := ',') rfl, hmore]
      rfl

private theorem renderMembers_ne_nil {members : List (Option String × Json)} (hne : members ≠ []) :
    renderMembers members ≠ [] := by
  cases members with
  | nil => exact absurd rfl hne
  | cons m members => simp [renderMembers]

/-- The members of a record, with their names as JSON has them. -/
def named (members : List (String × Json)) : List (Option String × Json) :=
  members.map fun (name, value) => (some name, value)

/-- Members that are written are read, up to the end of their object. -/
theorem parseMembers?_render {members : List (String × Json)} (hne : members ≠ [])
    (hreads : ∀ m ∈ members, m.2.Reads) {fuel : Nat} {rest : List Char}
    (hfuel : 2 * (commaSeparated (renderMembers (named members))).length < fuel) :
    parseMembers? fuel (commaSeparated (renderMembers (named members)) ++ '\x7d' :: rest) =
      some (named members, rest) := by
  induction members generalizing fuel with
  | nil => exact absurd rfl hne
  | cons m members ih =>
    obtain ⟨name, j⟩ := m
    obtain ⟨fuel, rfl⟩ := Nat.exists_eq_succ_of_ne_zero (Nat.ne_zero_of_lt hfuel)
    have hj : j.Reads := hreads (name, j) List.mem_cons_self
    rw [parseMembers?]
    by_cases hlast : members = []
    · subst hlast
      simp only [named, List.map_cons, List.map_nil, renderMembers, commaSeparated, Option.getD_some,
        renderString, List.cons_append, List.append_assoc, List.length_cons, List.length_append] at hfuel ⊢
      simp only [skipSpace_cons (c := '"') rfl, parseString?_render, skipSpace_cons (c := ':') rfl,
        Option.bind_eq_bind, Option.bind_some, List.nil_append]
      rw [hj fuel _ (by omega) (.cons (.inr (.inr rfl)) rest)]
      rfl
    · have hmembers : ∀ m ∈ members, m.2.Reads := fun m hmem => hreads m (List.mem_cons_of_mem _ hmem)
      have hnamed : renderMembers (named members) ≠ [] := renderMembers_ne_nil (by simpa [named] using hlast)
      have htext : commaSeparated (renderMembers (named ((name, j) :: members))) =
          renderString name ++ ':' :: renderChars j ++
            ',' :: commaSeparated (renderMembers (named members)) := commaSeparated_cons _ hnamed
      rw [htext] at hfuel ⊢
      simp only [renderString, List.cons_append, List.append_assoc, List.length_cons,
        List.length_append] at hfuel ⊢
      have hmore : parseMembers? fuel (commaSeparated (renderMembers (named members)) ++ '\x7d' :: rest) =
          some (named members, rest) := ih hlast hmembers (by omega)
      simp only [skipSpace_cons (c := '"') rfl, parseString?_render, skipSpace_cons (c := ':') rfl,
        Option.bind_eq_bind, Option.bind_some, List.nil_append]
      rw [hj fuel _ (by omega) (.cons (.inl rfl) _)]
      simp only [Option.bind_some, skipSpace_cons (c := ',') rfl, hmore]
      rfl

/-- A number is read, since it begins as no other value does. -/
theorem reads_integer (n : Int) : (integer n).Reads := by
  refine (Plain.integer n).reads_of_succ fun fuel rest _ hrest => ?_
  have hnumber := parseNumber?_integer n hrest
  obtain ⟨c, s, hcons, hspace, hne⟩ := toList_integer_cons n
  rw [hcons] at hnumber
  rw [renderChars, hcons, parseValue?, List.cons_append, skipSpace_cons hspace]
  split
  case h_7 => exact hnumber
  all_goals next heq => exact absurd (List.cons.inj heq).1 (hne _ (by decide) rfl)

private theorem parseValue?_array (fuel : Nat) {c : Char} {s tail : List Char} (hs : s = c :: tail)
    (hspace : isSpace c = false) (hne : c ≠ ']') :
    parseValue? (fuel + 1) ('[' :: s) =
      (parseItems? fuel s).map fun (items, rest) => (.array items, rest) := by
  subst hs
  rw [parseValue?, skipSpace_cons rfl]
  simp only [skipSpace_cons hspace]
  split
  · next heq => exact absurd (List.cons.inj heq).1 hne
  · cases parseItems? fuel (c :: tail) <;> rfl

private theorem parseValue?_object (fuel : Nat) {c : Char} {s tail : List Char} (hs : s = c :: tail)
    (hspace : isSpace c = false) (hne : c ≠ '\x7d') : parseValue? (fuel + 1) ('\x7b' :: s) =
      (parseMembers? fuel s).map fun (members, rest) => (.object members, rest) := by
  subst hs
  rw [parseValue?, skipSpace_cons rfl]
  simp only [skipSpace_cons hspace]
  split
  · next heq => exact absurd (List.cons.inj heq).1 hne
  · cases parseMembers? fuel (c :: tail) <;> rfl

private theorem reads_array {items : List Json} (hplain : ∀ j ∈ items, j.Plain)
    (hreads : ∀ j ∈ items, j.Reads) : (array items).Reads := by
  refine (Plain.array hplain).reads_of_succ fun fuel rest hfuel _ => ?_
  simp only [renderChars, List.cons_append, List.append_assoc, List.nil_append, List.length_cons,
    List.length_append] at hfuel ⊢
  cases items with
  | nil => rfl
  | cons j items =>
    have hmore : parseItems? fuel (commaSeparated (renderItems (j :: items)) ++ ']' :: rest) =
        some (j :: items, rest) := parseItems?_render (List.cons_ne_nil j items) hreads (by omega)
    obtain ⟨c, s, hcons, hspace, hne⟩ := renderChars_cons (hplain j List.mem_cons_self)
    obtain ⟨t, ht⟩ := commaSeparated_append (renderChars j) (renderItems items)
    have hs : commaSeparated (renderItems (j :: items)) ++ ']' :: rest = c :: (s ++ t ++ ']' :: rest) := by
      rw [renderItems, ht, hcons]
      rfl
    rw [parseValue?_array fuel hs hspace hne, hmore]
    rfl

private theorem reads_record {members : List (String × Json)} (hplain : ∀ m ∈ members, m.2.Plain)
    (hreads : ∀ m ∈ members, m.2.Reads) : (record members).Reads := by
  refine (Plain.record hplain).reads_of_succ fun fuel rest hfuel _ => ?_
  rw [show record members = .object (named members) from rfl] at hfuel ⊢
  simp only [renderChars, List.cons_append, List.append_assoc, List.nil_append, List.length_cons,
    List.length_append] at hfuel ⊢
  cases members with
  | nil => rfl
  | cons m members =>
    have hmore :
        parseMembers? fuel (commaSeparated (renderMembers (named (m :: members))) ++ '\x7d' :: rest) =
          some (named (m :: members), rest) :=
      parseMembers?_render (List.cons_ne_nil m members) hreads (by omega)
    obtain ⟨t, ht⟩ := commaSeparated_append (renderString m.1 ++ ':' :: renderChars m.2)
      (renderMembers (named members))
    have hs : ∃ tail, commaSeparated (renderMembers (named (m :: members))) ++ '\x7d' :: rest = '"' :: tail :=
      ⟨_, congrArg (· ++ '\x7d' :: rest) ht⟩
    obtain ⟨tail, hs⟩ := hs
    rw [parseValue?_object fuel hs rfl (by decide), hmore]
    rfl

/-- The text of a value is read as the value, whatever follows it. -/
theorem Plain.reads {j : Json} (hj : j.Plain) : j.Reads := by
  induction hj with
  | null => exact Plain.null.reads_of_succ fun _ _ _ _ => rfl
  | bool b =>
    refine (Plain.bool b).reads_of_succ fun _ _ _ _ => ?_
    cases b <;> rfl
  | integer n => exact reads_integer n
  | text s =>
    refine (Plain.text s).reads_of_succ fun _ _ _ _ => ?_
    simp only [Json.text, renderChars, renderString, List.cons_append, List.append_assoc, List.nil_append]
    rw [parseValue?, skipSpace_cons rfl]
    simp only [parseString?_render]
    rfl
  | array hitems ih => exact reads_array hitems ih
  | record hmembers ih => exact reads_record hmembers ih

/-- The text of a value is the value's own. -/
theorem parse?_render {j : Json} (hj : j.Plain) : parse? (render j) = some j := by
  have hlength : (render j).length = (renderChars j).length := by rw [render, String.length_ofList]
  have hread := hj.reads (2 * (render j).length + 1) [] (by omega) (fun c hc => by cases hc)
  rw [List.append_nil] at hread
  rw [parse?, show (render j).toList = renderChars j from String.toList_ofList, hread]
  rfl

end Json

end InlineCache
