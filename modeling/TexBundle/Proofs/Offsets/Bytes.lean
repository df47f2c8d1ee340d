import TexBundle.Text.Utf8
import TexBundle.Bibliography.Fields
import TexBundle.Proofs.Offsets.Slice
import TexBundle.Proofs.Source.Comment

/-!
# Scans byte by byte

Delimiters, quotes and comments are looked for in the bytes of a text. All of these searches carry a
state along and stop at some ASCII character, so they never stop inside of a character that takes
more than one byte, and they find what a search by characters finds.

* `stopAt?`: a search of any kind;
* `Lifts`, `Lifts.stopAt?_encode`: a search by bytes that follows one by characters;
* `Settles`, `stopByte_append`: a search for two marks, which does;
* `closingByte`, `quoteByte`, `commentedAt`: the three searches, which give offsets;
* `closingByte_append`, `quoteByte_append`, `commentedAt_append`: what they find.
-/

namespace TexBundle.Offsets

open Utf8 (encode)
open Source (LineState isCommented)

/-! ## The bytes of a character -/

variable {b : UInt8} {c d : Char}

theorem encode_cons (c : Char) (t : Text) : encode (c :: t) = String.utf8EncodeChar c ++ encode t :=
  List.flatMap_cons

@[simp] theorem encode_append (s t : Text) : encode (s ++ t) = encode s ++ encode t :=
  List.flatMap_append

@[simp] theorem length_encode (t : Text) : (encode t).length = Text.size t := by
  induction t with
  | nil => rfl
  | cons c t ih =>
    rw [encode_cons, List.length_append, String.length_utf8EncodeChar, ih, Text.size_cons]

theorem utf8EncodeChar_ascii (h : c.utf8Size = 1) : String.utf8EncodeChar c = [c.toUInt8] :=
  String.utf8EncodeChar_eq_singleton h

/-- Bytes of a character that has several are no ASCII characters. -/
theorem le_of_mem_utf8EncodeChar (h : c.utf8Size ≠ 1) (hb : b ∈ String.utf8EncodeChar c) :
    128 ≤ b.toNat := by
  have hc : ¬c.val.toNat ≤ 127 := fun hle => h (Char.utf8Size_eq_one_iff.2 hle)
  rw [String.utf8EncodeChar, if_neg hc] at hb
  split at hb
  · simp only [List.mem_cons, List.not_mem_nil, or_false] at hb
    rcases hb with rfl | rfl <;> rw [UInt8.toNat_ofNat'] <;> omega
  · split at hb
    · simp only [List.mem_cons, List.not_mem_nil, or_false] at hb
      rcases hb with rfl | rfl | rfl <;> rw [UInt8.toNat_ofNat'] <;> omega
    · simp only [List.mem_cons, List.not_mem_nil, or_false] at hb
      rcases hb with rfl | rfl | rfl | rfl <;> rw [UInt8.toNat_ofNat'] <;> omega

theorem toNat_toUInt8 (h : c.utf8Size = 1) : c.toUInt8.toNat = c.toNat ∧ c.toNat < 128 := by
  have hlt : c.val.toNat ≤ 127 := Char.utf8Size_eq_one_iff.1 h
  refine ⟨?_, Nat.lt_succ_of_le hlt⟩
  rw [Char.toUInt8, UInt32.toNat_toUInt8, Char.toNat]
  omega

theorem toUInt8_inj (hc : c.utf8Size = 1) (hd : d.utf8Size = 1) :
    c.toUInt8 = d.toUInt8 ↔ c = d := by
  refine ⟨fun h => ?_, fun h => h ▸ rfl⟩
  have h := congrArg UInt8.toNat h
  rw [(toNat_toUInt8 hc).1, (toNat_toUInt8 hd).1] at h
  exact Char.toNat_inj.1 h

theorem ne_toUInt8 (hb : 128 ≤ b.toNat) (hd : d.utf8Size = 1) : b ≠ d.toUInt8 := by
  rintro rfl
  have hd := toNat_toUInt8 hd
  omega

/-- Text starts with an ASCII character where its bytes do. -/
theorem head?_encode_eq_iff (hd : d.utf8Size = 1) {t : Text} :
    (encode t).head? = some d.toUInt8 ↔ t.head? = some d := by
  cases t with
  | nil => simp [encode]
  | cons c t =>
    rw [encode_cons, List.head?_cons, Option.some.injEq]
    by_cases hc : c.utf8Size = 1
    · rw [utf8EncodeChar_ascii hc, List.singleton_append, List.head?_cons, Option.some.injEq,
        toUInt8_inj hc hd]
    · obtain ⟨b, bs, hbytes⟩ := List.exists_cons_of_ne_nil (String.utf8EncodeChar_ne_nil (c := c))
      have hb : b ≠ d.toUInt8 :=
        ne_toUInt8 (le_of_mem_utf8EncodeChar hc (hbytes ▸ List.mem_cons_self)) hd
      have hne : c ≠ d := fun h => hc (h ▸ hd)
      rw [hbytes, List.cons_append, List.head?_cons, Option.some.injEq]
      exact iff_of_false hb hne

/-! ## Searches -/

/-- A search that carries a state along: `step` gives the state behind an item, or nothing where the
search stops. What comes before that item and what comes behind it. -/
def stopAt? {σ α : Type} (step : σ → α → Option σ) (st : σ) : List α → Option (List α × List α)
  | [] => none
  | a :: as =>
    match step st a with
    | none => some ([], as)
    | some st => (stopAt? step st as).map fun (before, behind) => (a :: before, behind)

/-- A step on bytes that does with a character of one byte what a step on characters does, and with
all the bytes of any other character what that does with the character. -/
structure Lifts {σ : Type} (byte : σ → UInt8 → Option σ) (char : σ → Char → Option σ) : Prop where
  ascii (st : σ) {c : Char} (h : c.utf8Size = 1) : byte st c.toUInt8 = char st c
  wide (st : σ) {c : Char} (h : c.utf8Size ≠ 1) : ∃ st', char st c = some st' ∧
    ∀ b : UInt8, 128 ≤ b.toNat → byte st b = some st' ∧ byte st' b = some st'

section

variable {σ : Type} {byte : σ → UInt8 → Option σ} {char : σ → Char → Option σ} {st st' : σ}

theorem stopAt?_append {bs : Bytes} (hne : bs ≠ [])
    (h : ∀ b ∈ bs, byte st b = some st' ∧ byte st' b = some st') (bs' : Bytes) :
    stopAt? byte st (bs ++ bs') =
      (stopAt? byte st' bs').map fun (before, behind) => (bs ++ before, behind) := by
  induction bs generalizing st with
  | nil => exact absurd rfl hne
  | cons b bs ih =>
    rw [List.cons_append, stopAt?, (h b List.mem_cons_self).1]
    cases bs with
    | nil => rfl
    | cons b' bs =>
      have hrest : ∀ x ∈ b' :: bs, byte st' x = some st' ∧ byte st' x = some st' := fun x hx =>
        have hx := (h x (List.mem_cons_of_mem _ hx)).2
        ⟨hx, hx⟩
      simp only [ih (List.cons_ne_nil _ _) hrest, Option.map_map]
      rfl

/-- Such a search by bytes stops where the search by characters stops. -/
theorem Lifts.stopAt?_encode (h : Lifts byte char) (st : σ) (t : Text) :
    stopAt? byte st (encode t) =
      (stopAt? char st t).map fun (before, behind) => (encode before, encode behind) := by
  induction t generalizing st with
  | nil => rfl
  | cons c t ih =>
    rw [encode_cons, stopAt?]
    by_cases hc : c.utf8Size = 1
    · rw [utf8EncodeChar_ascii hc, List.singleton_append, stopAt?, h.ascii st hc]
      cases char st c with
      | none => rfl
      | some st' =>
        simp only [ih, Option.map_map]
        congr 1
        funext x
        simp [encode_cons, utf8EncodeChar_ascii hc]
    · obtain ⟨st', hst, hbytes⟩ := h.wide st hc
      rw [stopAt?_append String.utf8EncodeChar_ne_nil
        (fun b hb => hbytes b (le_of_mem_utf8EncodeChar hc hb)), hst]
      simp only [ih, Option.map_map]
      rfl

end

/-! ## The three searches -/

/-- A step that only asks whether an item is one of two marks. -/
def marked {σ α : Type} [DecidableEq α] (step : σ → Bool → Bool → Option σ) (first second : α)
    (st : σ) (a : α) : Option σ :=
  step st (a = first) (a = second)

/-- Counting the groups that are open, at delimiters that open and close one. The search stops where
none is left. -/
def closeStep : Nat → (left right : Bool) → Option Nat
  | depth, true, _ => some (depth + 1)
  | depth, false, true => if depth - 1 = 0 then none else some (depth - 1)
  | depth, false, false => some depth

/-- Looking for a quote that no backslash escapes. The state says whether one has just been read that
escapes the next item. -/
def quoteStep : Bool → (slash quote : Bool) → Option Bool
  | false, true, _ => some true
  | false, false, true => none
  | _, _, _ => some false

/-- Looking for a percent sign that no backslash escapes. -/
def commentStep : Bool → (slash percent : Bool) → Option Bool
  | escaped, true, _ => some (!escaped)
  | false, false, true => none
  | _, false, _ => some false

/-- Items that are no marks bring a search into a state that more of them leave as it is. -/
def Settles {σ : Type} (step : σ → Bool → Bool → Option σ) : Prop :=
  ∀ st, ∃ st', step st false false = some st' ∧ step st' false false = some st'

theorem settles_closeStep : Settles closeStep := fun depth => ⟨depth, rfl, rfl⟩

theorem settles_quoteStep : Settles quoteStep :=
  fun escaped => ⟨false, by cases escaped <;> rfl, rfl⟩

theorem settles_commentStep : Settles commentStep :=
  fun escaped => ⟨false, by cases escaped <;> rfl, rfl⟩

/-- The byte, of those from number `start` on, at which a search stops. -/
def stopByte {σ : Type} (step : σ → Bool → Bool → Option σ) (first second : UInt8) (st : σ)
    (start : Nat) (bytes : Bytes) : Option Nat :=
  (stopAt? (marked step first second) st (bytes.drop start)).map
    fun (before, _) => start + before.length

/-- The delimiter that closes the group opened just before byte `start`. -/
def closingByte (left right : UInt8) (start : Nat) (bytes : Bytes) : Option Nat :=
  stopByte closeStep left right 1 start bytes

/-- The quote that ends the value quoted from byte `start` on. -/
def quoteByte (start : Nat) (bytes : Bytes) : Option Nat :=
  stopByte quoteStep '\\'.toUInt8 '"'.toUInt8 false start bytes

/-- The bytes between two numbers. -/
def sliceBytes (start stop : Nat) (bytes : Bytes) : Scan Bytes :=
  if start ≤ stop ∧ stop ≤ bytes.length then .ok ((bytes.take stop).drop start) else .error .slice

/-- The byte at which the last line of a text starts. -/
def lineStart (t : Text) : Nat := (lastOffset? '\n' t).elim 0 (· + 1)

/-- Whether byte `pos` of a text lies inside a comment: whether one starts before it on its line. -/
def commentedAt (t : Text) (pos : Nat) : Scan Bool := do
  let line ← sliceBytes (lineStart (← sliceTo pos t)) pos (encode t)
  return (stopByte commentStep '\\'.toUInt8 '%'.toUInt8 false 0 line).isSome

/-! ## What they find -/

section

variable {σ : Type} {step : σ → Bool → Bool → Option σ} {first second : Char}

theorem lifts_marked (hfirst : first.utf8Size = 1) (hsecond : second.utf8Size = 1)
    (hsettles : Settles step) :
    Lifts (marked step first.toUInt8 second.toUInt8) (marked step first second) where
  ascii st c hc := by simp only [marked, toUInt8_inj hc hfirst, toUInt8_inj hc hsecond]
  wide st c hc := by
    obtain ⟨st', hst, hst'⟩ := hsettles st
    have hc₁ : c ≠ first := fun h => hc (h ▸ hfirst)
    have hc₂ : c ≠ second := fun h => hc (h ▸ hsecond)
    refine ⟨st', by simp only [marked, hc₁, hc₂, decide_false, hst], fun b hb => ?_⟩
    have hb₁ : b ≠ first.toUInt8 := ne_toUInt8 hb hfirst
    have hb₂ : b ≠ second.toUInt8 := ne_toUInt8 hb hsecond
    simp only [marked, hb₁, hb₂, decide_false, hst, hst', and_self]

/-- A search by bytes stops at the place where the search by characters stops. -/
theorem stopByte_append (hfirst : first.utf8Size = 1) (hsecond : second.utf8Size = 1)
    (hsettles : Settles step) (st : σ) (before t : Text) :
    stopByte step first.toUInt8 second.toUInt8 st (Text.size before) (encode (before ++ t)) =
      (stopAt? (marked step first second) st t).map fun x => Text.size before + Text.size x.1 := by
  have hdrop : (encode (before ++ t)).drop (Text.size before) = encode t := by
    rw [encode_append, ← length_encode, List.drop_left]
  rw [stopByte, hdrop, (lifts_marked hfirst hsecond hsettles).stopAt?_encode, Option.map_map]
  refine congrArg (Option.map · _) (funext fun x => ?_)
  show Text.size before + (encode x.1).length = _
  rw [length_encode]

end

theorem stopAt?_closeStep (left right : Char) (depth : Nat) (t : Text) :
    stopAt? (marked closeStep left right) (depth + 1) t =
      Bibliography.closing? left right depth t := by
  induction t generalizing depth with
  | nil => rfl
  | cons c t ih =>
    rw [stopAt?, marked, Bibliography.closing?]
    by_cases hleft : c = left
    · obtain rfl := hleft
      simp [closeStep, ih]
    · by_cases hright : c = right
      · obtain rfl := hright
        cases depth with
        | zero => simp [hleft, closeStep]
        | succ depth => simp [hleft, closeStep, ih]
      · simp [hleft, hright, closeStep, ih]

theorem stopAt?_quoteStep (escaped : Bool) (t : Text) :
    stopAt? (marked quoteStep '\\' '"') escaped t = Bibliography.Value.quoted? escaped t := by
  induction t generalizing escaped with
  | nil => rfl
  | cons c t ih =>
    rw [stopAt?, marked, Bibliography.Value.quoted?]
    by_cases hslash : c = '\\'
    · cases escaped <;> simp [hslash, quoteStep, ih]
    · by_cases hquote : c = '"'
      · cases escaped <;> simp [hquote, quoteStep, ih]
      · cases escaped <;> simp [hslash, hquote, quoteStep, ih]

/-- On a line, the search finds where a comment starts. -/
theorem isSome_stopAt?_commentStep {t : Text} (h : '\n' ∉ t) (escaped : Bool) :
    (stopAt? (marked commentStep '\\' '%') escaped t).isSome =
      ((if escaped then LineState.escaped else .plain).after t == .comment) := by
  induction t generalizing escaped with
  | nil => cases escaped <;> rfl
  | cons c t ih =>
    obtain ⟨hc, ht⟩ : '\n' ≠ c ∧ '\n' ∉ t := by rwa [List.mem_cons, not_or] at h
    rw [stopAt?, marked, LineState.after_cons]
    by_cases hslash : c = '\\'
    · obtain rfl := hslash
      cases escaped
      · simpa [commentStep, LineState.step] using ih ht true
      · simpa [commentStep, LineState.step] using ih ht false
    · by_cases hpercent : c = '%'
      · obtain rfl := hpercent
        cases escaped
        · simp [commentStep, LineState.step, LineState.after_comment ht]
        · simpa [commentStep, LineState.step] using ih ht false
      · have hstep (st : LineState) (hst : st ≠ .comment) : st.step c = .plain := by
          unfold LineState.step
          split <;> simp_all
        cases escaped
        · simpa [hslash, hpercent, commentStep, hstep] using ih ht false
        · simpa [hslash, hpercent, commentStep, hstep] using ih ht false

theorem closingByte_append {left right : Char} (hl : left.utf8Size = 1) (hr : right.utf8Size = 1)
    (before t : Text) :
    closingByte left.toUInt8 right.toUInt8 (Text.size before) (encode (before ++ t)) =
      (Bibliography.closing? left right 0 t).map fun x => Text.size before + Text.size x.1 := by
  rw [closingByte, stopByte_append hl hr settles_closeStep]
  exact congrArg _ (stopAt?_closeStep left right 0 t)

theorem quoteByte_append (before t : Text) :
    quoteByte (Text.size before) (encode (before ++ t)) =
      (Bibliography.Value.quoted? false t).map fun x => Text.size before + Text.size x.1 := by
  rw [quoteByte, stopByte_append rfl rfl settles_quoteStep, stopAt?_quoteStep]

theorem sliceBytes_of_eq {bytes front middle behind : Bytes} {start stop : Nat}
    (h : bytes = front ++ (middle ++ behind)) (hstart : start = front.length)
    (hstop : stop = start + middle.length) : sliceBytes start stop bytes = .ok middle := by
  have hbounds : start ≤ stop ∧ stop ≤ bytes.length := by
    rw [h, List.length_append, List.length_append]
    omega
  rw [sliceBytes, if_pos hbounds, h, hstop, hstart, List.take_length_add_append, List.take_left,
    List.drop_left]

theorem exists_line (before : Text) :
    ∃ front line, before = front ++ line ∧ '\n' ∉ line ∧ LineState.plain.after front = .plain ∧
      lineStart before = Text.size front := by
  rw [lineStart, lastOffset?]
  cases hbreak : before.breakAtLast? '\n' with
  | none => exact ⟨[], before, rfl, Text.breakAtLast?_eq_none_iff.1 hbreak, rfl, rfl⟩
  | some x =>
    obtain ⟨front, line⟩ := x
    refine ⟨front ++ ['\n'], line, ?_, Text.not_mem_of_breakAtLast? hbreak,
      Source.after_concat_newline front, ?_⟩
    · rw [Text.eq_of_breakAtLast? hbreak, List.append_assoc, List.singleton_append]
    · rw [Text.size_append]
      rfl

theorem commentedAt_append (before t : Text) :
    commentedAt (before ++ t) (Text.size before) = .ok (isCommented before) := by
  obtain ⟨front, line, hbefore, hline, hfront, hstart⟩ := exists_line before
  have hbytes : encode (before ++ t) = encode front ++ (encode line ++ encode t) := by
    rw [hbefore, List.append_assoc, encode_append, encode_append]
  have hslice : sliceBytes (Text.size front) (Text.size before) (encode (before ++ t)) =
      .ok (encode line) := by
    refine sliceBytes_of_eq hbytes (length_encode front).symm ?_
    rw [hbefore, Text.size_append, length_encode]
  have hsearch := @stopByte_append _ commentStep '\\' '%' rfl rfl settles_commentStep false [] line
  have hstate : isCommented before = isCommented line := by
    rw [isCommented, isCommented, hbefore, LineState.after_append, hfront]
  rw [commentedAt, sliceTo_of_eq rfl rfl, ok_bind, hstart, hslice, ok_bind, hstate]
  rw [List.nil_append, Text.size_nil] at hsearch
  rw [hsearch, Option.isSome_map, isSome_stopAt?_commentStep hline]
  rfl

end TexBundle.Offsets
