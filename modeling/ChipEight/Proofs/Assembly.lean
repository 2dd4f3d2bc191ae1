import Mathlib.Algebra.Group.Nat.Defs
import Mathlib.Data.List.Forall2
import ChipEight.Isa.Encoding
import ChipEight.Isa.Listing

/-! Listings read back.

A listing is made for people, but it holds the whole of a program. `Instruction.read?` reads a line
as it was written: its words stand between blanks, an operand is known by its marks
(`Operand.read?`), and an operation that is written for several instructions, as `LD` is for
eleven, becomes one of them by what its operands are (`Instruction.ofOperands?`). So what is read
is what was written (`read?_mnemonic`), and with the opcodes of what is read a listing can be put
together to the program it was made of (`assemble?_listing`). `listing_lossless` draws the
conclusions: no two instructions are written alike, and no two programs have one listing. -/
namespace ChipEight

/-! ### Numerals -/

namespace Numeral

/-- The number that a hexadecimal digit stands for. -/
def value? (c : Char) : Option Nat :=
  if '0' ≤ c ∧ c ≤ '9' then some (c.toNat - '0'.toNat)
  else if 'A' ≤ c ∧ c ≤ 'F' then some (c.toNat - 'A'.toNat + 10)
  else none

/-- The number that hexadecimal digits stand for. -/
def ofDigits? (digits : List Char) : Option Nat :=
  digits.foldlM (fun n c => (value? c).map (16 * n + ·)) 0

theorem value?_digit : ∀ d < 16, value? (digit d) = some d := by decide

theorem ofDigits?_concat (cs : List Char) (c : Char) :
    ofDigits? (cs ++ [c]) = (ofDigits? cs).bind fun n => (value? c).map (16 * n + ·) := by
  rw [ofDigits?, ofDigits?, List.foldlM_append]
  cases List.foldlM (fun n c => (value? c).map (16 * n + ·)) 0 cs with
  | none => rfl
  | some n => simp

/-- Digits that are enough for a number stand for it. -/
theorem ofDigits?_digits {width n : Nat} (h : n < 16 ^ width) :
    ofDigits? (digits width n) = some n := by
  induction width generalizing n with
  | zero => rw [Nat.lt_one_iff.mp h]; rfl
  | succ width ih =>
    rw [digits, ofDigits?_concat, ih (Nat.div_lt_of_lt_mul (by rwa [Nat.pow_succ'] at h)),
      value?_digit _ (Nat.mod_lt n (by decide)), Option.bind_some, Option.map_some,
      Nat.div_add_mod]

/-- A numeral that is wide enough for its number has just that width. -/
theorem toList_hex {width n : Nat} (pos : 0 < width) (h : n < 16 ^ width) :
    (hex width n).toList = digits width n := by
  have hneeded : needed n ≤ width := by
    rw [needed, Nat.succ_le_iff, Nat.div_lt_iff_lt_mul (by decide)]
    by_cases hn : n = 0
    · rw [hn]
      exact Nat.mul_pos pos (by decide)
    · rw [Nat.log2_lt hn, Nat.mul_comm, Nat.pow_mul]
      exact h
  rw [hex, Nat.max_eq_left hneeded, String.toList_ofList]

theorem toList_marked {width n : Nat} (pos : 0 < width) (h : n < 16 ^ width) :
    (marked width n).toList = '0' :: 'x' :: digits width n := by
  rw [marked, String.toList_append, toList_hex pos h]
  rfl

/-- The marks that part the words of a line, and those that operands are known by, are no digits. -/
theorem ne_mark_of_mem_digits {width n : Nat} :
    ∀ c ∈ digits width n, c ≠ ' ' ∧ c ≠ ',' ∧ c ≠ 'V' ∧ c ≠ 'x' := by
  have hdigit : ∀ d < 16, digit d ≠ ' ' ∧ digit d ≠ ',' ∧ digit d ≠ 'V' ∧ digit d ≠ 'x' := by
    decide
  induction width generalizing n with
  | zero => exact fun c hc => absurd hc List.not_mem_nil
  | succ width ih =>
    intro c hc
    rw [digits, List.mem_append, List.mem_singleton] at hc
    obtain hc | rfl := hc
    · exact ih c hc
    · exact hdigit _ (Nat.mod_lt n (by decide))

end Numeral

/-! ### Operands -/

/-- A text keeps clear of the marks that part the words of a line. -/
def Listing.Plain (text : List Char) : Prop := ∀ c ∈ text, c ≠ ' ' ∧ c ≠ ','

-- Over the characters of the text: there are too many characters to try them all.
instance (text : List Char) : Decidable (Listing.Plain text) := List.decidableBAll _ _

/-- What can stand as an operand in a listing. -/
inductive Operand where
  | register (x : Nibble)
  | byte (kk : UInt8)
  | address (a : Address)
  /-- The height of a sprite. -/
  | height (n : Nibble)
  /-- A word outside the instruction set. -/
  | word (op : Opcode)
  /-- The index. -/
  | index
  /-- The place the index points at. -/
  | atIndex
  /-- The delay timer. -/
  | delay
  /-- The sound timer. -/
  | sound
  /-- A key. -/
  | key
  /-- The glyph of a digit. -/
  | glyph
  /-- The decimal digits of a number. -/
  | decimal
deriving DecidableEq

namespace Operand
open Numeral

/-- The operand that has a name of its own. -/
def named? : List Char → Option Operand
  | ['I'] => some .index
  | ['[', 'I', ']'] => some .atIndex
  | ['D', 'T'] => some .delay
  | ['S', 'T'] => some .sound
  | ['K'] => some .key
  | ['F'] => some .glyph
  | ['B'] => some .decimal
  | _ => none

/-- The height of a sprite, which is the one number in decimal. -/
def height? (text : List Char) : Option Operand :=
  if text.all Char.isDigit then some (.height (Nibble.ofNat (Nat.ofDigitChars 10 text 0)))
  else none

/-- The operand that a text stands for. A byte has two digits behind its mark and an address
three; a word of a program has no mark, but four digits. -/
def read? : List Char → Option Operand
  | 'V' :: digits => (ofDigits? digits).map fun n => .register (Nibble.ofNat n)
  | '0' :: 'x' :: digits => (ofDigits? digits).map fun n =>
    if digits.length = 2 then .byte (UInt8.ofNat n) else .address (Address.ofNat n)
  | text =>
    if text.length = 4 then (ofDigits? text).map fun n => .word ⟨UInt16.ofNat n⟩
    else (named? text).or (height? text)

/-- A text keeps clear of the marks that part words, and stands for an operand. -/
structure Reads (text : String) (operand : Operand) : Prop where
  plain : Listing.Plain text.toList
  read : read? text.toList = some operand

/-- Digits behind a mark, or behind none, keep clear of what parts words. -/
theorem reads_of_digits {text : String} (mark : List Char) {width n : Nat} {operand : Operand}
    (htext : text.toList = mark ++ digits width n) (hmark : Listing.Plain mark)
    (hread : read? (mark ++ digits width n) = some operand) : Reads text operand := by
  refine ⟨fun c hc => ?_, by rw [htext, hread]⟩
  rw [htext, List.mem_append] at hc
  obtain hc | hc := hc
  · exact hmark c hc
  · exact ⟨(ne_mark_of_mem_digits c hc).1, (ne_mark_of_mem_digits c hc).2.1⟩

theorem reads_register (x : Nibble) : Reads (Listing.register x) (.register x) := by
  have hx : x.val < 16 ^ 1 := x.lt
  have htext : (Listing.register x).toList = ['V'] ++ digits 1 x.val := by
    rw [Listing.register, String.toList_append, toList_hex (by decide) hx]
    rfl
  refine reads_of_digits ['V'] htext (by decide) ?_
  rw [List.singleton_append, read?, ofDigits?_digits hx, Option.map_some]
  exact congrArg (some ∘ register) (Fin.ext (Nat.mod_eq_of_lt x.lt))

theorem reads_byte (kk : UInt8) : Reads (Listing.byte kk) (.byte kk) := by
  have hkk : kk.toNat < 16 ^ 2 := kk.toNat_lt
  refine reads_of_digits ['0', 'x'] (toList_marked (by decide) hkk) (by decide) ?_
  rw [List.cons_append, List.singleton_append, read?, ofDigits?_digits hkk, Option.map_some,
    if_pos (length_digits _ _), UInt8.ofNat_toNat]

theorem reads_address (a : Address) : Reads (Listing.address a.val) (.address a) := by
  have ha : a.val < 16 ^ 3 := a.isLt
  refine reads_of_digits ['0', 'x'] (toList_marked (by decide) ha) (by decide) ?_
  rw [List.cons_append, List.singleton_append, read?, ofDigits?_digits ha, Option.map_some,
    if_neg (by rw [length_digits]; decide)]
  exact congrArg (some ∘ address) (Fin.ext (Nat.mod_eq_of_lt a.isLt))

theorem reads_height (n : Nibble) : Reads (toString n.val) (.height n) := by
  constructor <;> revert n <;> decide

/-- A word of a program has no mark, so it has to be told from what has one. -/
theorem reads_word (op : Opcode) : Reads op.text (.word op) := by
  have hop : op.word.toNat < 16 ^ 4 := op.word.toNat_lt
  have htext : op.text.toList = digits 4 op.word.toNat := toList_hex (by decide) hop
  refine reads_of_digits [] (htext.trans (List.nil_append _).symm) (by decide) ?_
  rw [List.nil_append]
  have hread := ofDigits?_digits hop
  have hlength := length_digits 4 op.word.toNat
  have unmarked : ∀ c ∈ digits 4 op.word.toNat, c ≠ ' ' ∧ c ≠ ',' ∧ c ≠ 'V' ∧ c ≠ 'x' :=
    ne_mark_of_mem_digits
  generalize digits 4 op.word.toNat = text at *
  unfold read?
  split
  · exact absurd rfl (unmarked 'V' (by simp)).2.2.1
  · exact absurd rfl (unmarked 'x' (by simp)).2.2.2
  · rw [if_pos hlength, hread, Option.map_some, UInt16.ofNat_toNat]

end Operand

/-! ### Lines -/

namespace Listing

/-- The words of a line, without the commas behind them. -/
def words (line : String) : List (List Char) := (line.toList.filter (· != ',')).splitOn ' '

theorem filter_intercalate {α : Type} (p : α → Bool) (separator : List α) (parts : List (List α)) :
    (separator.intercalate parts).filter p =
      (separator.filter p).intercalate (parts.map (List.filter p)) := by
  induction parts with
  | nil => rfl
  | cons part rest ih =>
    cases rest with
    | nil => simp
    | cons next rest =>
      rw [List.intercalate_cons_cons, List.filter_append, List.filter_append, ih]
      simp only [List.map_cons, List.intercalate_cons_cons]

/-- The words of a line are its operation and its operands. -/
theorem words_line {operation text : String} {texts : List String}
    (plain : ∀ t ∈ operation :: text :: texts, Plain t.toList) :
    words (line operation (text :: texts)) = (operation :: text :: texts).map String.toList := by
  have hkeep : ∀ t ∈ operation :: text :: texts, t.toList.filter (· != ',') = t.toList :=
    fun t ht => List.filter_eq_self.mpr fun c hc => bne_iff_ne.mpr (plain t ht c hc).2
  have hparts : ((text :: texts).map String.toList).map (List.filter (· != ',')) =
      (text :: texts).map String.toList := by
    rw [List.map_map]
    exact List.map_congr_left fun t ht => hkeep t (List.mem_cons_of_mem _ ht)
  have hchars : (line operation (text :: texts)).toList.filter (· != ',') =
      [' '].intercalate ((operation :: text :: texts).map String.toList) := by
    rw [line, String.toList_append, String.toList_append, String.toList_intercalate,
      List.filter_append, List.filter_append, filter_intercalate, hparts,
      hkeep operation List.mem_cons_self]
    simp only [List.map_cons, List.intercalate_cons_cons]
    rfl
  rw [words, hchars, List.splitOn_intercalate ' ' ?_ (by simp)]
  simp only [List.forall_mem_map]
  exact fun t ht hc => (plain t ht ' ' hc).1 rfl

end Listing

/-! ### Instructions -/

namespace Instruction

/-- The instruction that an operation and its operands make. -/
def ofOperands? : String → List Operand → Option Instruction
  | "CLS", [] => some .clear
  | "RET", [] => some .ret
  | "SYS", [.address a] => some (.sys a)
  | "JP", [.address a] => some (.jump a)
  | "JP", [.register x, .address a] => if x = 0 then some (.jumpPlus a) else none
  | "CALL", [.address a] => some (.call a)
  | "SE", [.register x, .byte kk] => some (.skipIfByte x kk)
  | "SE", [.register x, .register y] => some (.skipIfSame x y)
  | "SNE", [.register x, .byte kk] => some (.skipUnlessByte x kk)
  | "SNE", [.register x, .register y] => some (.skipUnlessSame x y)
  | "LD", [.register x, .byte kk] => some (.setByte x kk)
  | "LD", [.register x, .register y] => some (.copy x y)
  | "LD", [.index, .address a] => some (.setIndex a)
  | "LD", [.register x, .delay] => some (.readDelay x)
  | "LD", [.register x, .key] => some (.awaitKey x)
  | "LD", [.delay, .register x] => some (.setDelay x)
  | "LD", [.sound, .register x] => some (.setSound x)
  | "LD", [.glyph, .register x] => some (.glyph x)
  | "LD", [.decimal, .register x] => some (.decimal x)
  | "LD", [.atIndex, .register x] => some (.store x)
  | "LD", [.register x, .atIndex] => some (.load x)
  | "ADD", [.register x, .byte kk] => some (.addByte x kk)
  | "ADD", [.register x, .register y] => some (.add x y)
  | "ADD", [.index, .register x] => some (.addIndex x)
  | "OR", [.register x, .register y] => some (.or x y)
  | "AND", [.register x, .register y] => some (.and x y)
  | "XOR", [.register x, .register y] => some (.xor x y)
  | "SUB", [.register x, .register y] => some (.sub x y)
  | "SUBN", [.register x, .register y] => some (.subFrom x y)
  | "SHR", [.register x, .register y] => some (.shiftRight x y)
  | "SHL", [.register x, .register y] => some (.shiftLeft x y)
  | "RND", [.register x, .byte kk] => some (.random x kk)
  | "DRW", [.register x, .register y, .height n] => some (.draw x y n)
  | "SKP", [.register x] => some (.skipIfKey x)
  | "SKNP", [.register x] => some (.skipUnlessKey x)
  | "???", [.word op] => some (.unknown op)
  | _, _ => none

/-- The instruction that a line of a listing stands for. -/
def read? (line : String) : Option Instruction :=
  match Listing.words line with
  | [] => none
  | operation :: operands =>
    (operands.mapM Operand.read?).bind (ofOperands? (String.ofList operation))

/-- A line is read by its operation and what its operands stand for. -/
theorem read?_line {operation text : String} {texts : List String} {operand : Operand}
    {operands : List Operand} (plain : Listing.Plain operation.toList)
    (first : Operand.Reads text operand) (rest : List.Forall₂ Operand.Reads texts operands) :
    read? (Listing.line operation (text :: texts)) =
      ofOperands? operation (operand :: operands) := by
  have hplain : ∀ t ∈ texts, Listing.Plain t.toList := by
    induction rest with
    | nil => exact fun t ht => absurd ht List.not_mem_nil
    | cons h _ ih => exact List.forall_mem_cons.mpr ⟨h.plain, ih⟩
  have hread : (texts.map String.toList).mapM Operand.read? = some operands := by
    clear hplain
    induction rest with
    | nil => rfl
    | cons h _ ih => simp [h.read, ih]
  have hwords := Listing.words_line (List.forall_mem_cons.mpr
    ⟨plain, List.forall_mem_cons.mpr ⟨first.plain, hplain⟩⟩)
  rw [read?, hwords]
  simp [first.read, hread]

open Operand in
/-- **A line reads back as the instruction it was written for.** -/
theorem read?_mnemonic (i : Instruction) : read? i.mnemonic = some i := by
  -- the cases are the shapes of operands; the operation decides within a shape
  cases i with
  | clear | ret => rfl
  | sys a | jump a | call a =>
    exact (read?_line (by decide) (reads_address a) .nil).trans rfl
  | setIndex a =>
    exact (read?_line (by decide) (⟨by decide, rfl⟩ : Reads _ .index)
      (.cons (reads_address a) .nil)).trans rfl
  | jumpPlus a =>
    exact (read?_line (by decide) (⟨by decide, rfl⟩ : Reads _ (.register 0))
      (.cons (reads_address a) .nil)).trans rfl
  | skipIfByte x kk | skipUnlessByte x kk | setByte x kk | addByte x kk | random x kk =>
    exact (read?_line (by decide) (reads_register x) (.cons (reads_byte kk) .nil)).trans rfl
  | skipIfSame x y | skipUnlessSame x y | copy x y | or x y | and x y | xor x y | add x y
  | sub x y | subFrom x y | shiftRight x y | shiftLeft x y =>
    exact (read?_line (by decide) (reads_register x) (.cons (reads_register y) .nil)).trans rfl
  | draw x y n =>
    exact (read?_line (by decide) (reads_register x)
      (.cons (reads_register y) (.cons (reads_height n) .nil))).trans rfl
  | skipIfKey x | skipUnlessKey x =>
    exact (read?_line (by decide) (reads_register x) .nil).trans rfl
  | readDelay x =>
    exact (read?_line (by decide) (reads_register x)
      (.cons (⟨by decide, rfl⟩ : Reads _ .delay) .nil)).trans rfl
  | awaitKey x =>
    exact (read?_line (by decide) (reads_register x)
      (.cons (⟨by decide, rfl⟩ : Reads _ .key) .nil)).trans rfl
  | load x =>
    exact (read?_line (by decide) (reads_register x)
      (.cons (⟨by decide, rfl⟩ : Reads _ .atIndex) .nil)).trans rfl
  | setDelay x =>
    exact (read?_line (by decide) (⟨by decide, rfl⟩ : Reads _ .delay)
      (.cons (reads_register x) .nil)).trans rfl
  | setSound x =>
    exact (read?_line (by decide) (⟨by decide, rfl⟩ : Reads _ .sound)
      (.cons (reads_register x) .nil)).trans rfl
  | addIndex x =>
    exact (read?_line (by decide) (⟨by decide, rfl⟩ : Reads _ .index)
      (.cons (reads_register x) .nil)).trans rfl
  | glyph x =>
    exact (read?_line (by decide) (⟨by decide, rfl⟩ : Reads _ .glyph)
      (.cons (reads_register x) .nil)).trans rfl
  | decimal x =>
    exact (read?_line (by decide) (⟨by decide, rfl⟩ : Reads _ .decimal)
      (.cons (reads_register x) .nil)).trans rfl
  | store x =>
    exact (read?_line (by decide) (⟨by decide, rfl⟩ : Reads _ .atIndex)
      (.cons (reads_register x) .nil)).trans rfl
  | unknown op =>
    have hline : Instruction.mnemonic (.unknown op) = Listing.line "???" [op.text] := by
      rw [mnemonic, Listing.line, String.intercalate_singleton]
      rfl
    rw [hline]
    exact (read?_line (by decide) (reads_word op) .nil).trans rfl

end Instruction

/-! ### Programs -/

namespace Opcode

theorem high_ofBytes (high low : UInt8) : (ofBytes high low).high = high := by
  have hhigh := high.toNat_lt
  have hlow := low.toNat_lt
  simp only [ofBytes, Opcode.high, ← UInt8.toNat_inj, UInt8.toNat_ofNat', UInt16.toNat_ofNat']
  omega

theorem kk_ofBytes (high low : UInt8) : (ofBytes high low).kk = low := by
  have hhigh := high.toNat_lt
  have hlow := low.toNat_lt
  simp only [ofBytes, kk, ← UInt8.toNat_inj, UInt8.toNat_ofNat', UInt16.toNat_ofNat']
  omega

end Opcode

/-- The program that a listing is of, if each of its lines stands for an instruction. -/
def assemble? : List String → Option (List UInt8)
  | [] => some []
  | line :: rest => do
    let instruction ← Instruction.read? line
    let program ← assemble? rest
    return instruction.encode.high :: instruction.encode.kk :: program

/-- **A listing can be put together to the program it is of**, unless that has an odd byte at its
end. -/
theorem assemble?_listing {program : List UInt8} (whole : 2 ∣ program.length) :
    assemble? (listing program) = some program := by
  unfold listing
  fun_induction Opcode.ofProgram program with
  | case1 high low rest ih =>
    have hrest : 2 ∣ rest.length := by
      simp only [List.length_cons] at whole
      omega
    rw [List.map_cons, assemble?, Instruction.read?_mnemonic, ih hrest]
    simp only [Option.bind_eq_bind, Option.bind_some, Opcode.encode_decode, Opcode.high_ofBytes,
      Opcode.kk_ofBytes]
    rfl
  | case2 program short =>
    match program with
    | [] => rfl
    | [_] =>
      rw [List.length_singleton] at whole
      exact absurd whole (by decide)
    | high :: low :: rest => exact absurd rfl (short high low rest)

/-- **A listing loses nothing.** Put together, the listing of a program of whole words is that
program, so no two such programs have one listing. Decoding an opcode and writing down what it
decodes to can be undone, both for instructions and for words outside the instruction set, and no
two instructions are written alike. -/
theorem listing_lossless :
    (∀ program : List UInt8, 2 ∣ program.length → assemble? (listing program) = some program) ∧
    (∀ p q : List UInt8, 2 ∣ p.length → 2 ∣ q.length → listing p = listing q → p = q) ∧
    (∀ op : Opcode, op.decode.encode = op ∧
      Instruction.read? op.decode.mnemonic = some op.decode) ∧
    Function.Injective Instruction.mnemonic := by
  refine ⟨fun program => assemble?_listing, fun p q hp hq same => ?_,
    fun op => ⟨op.encode_decode, Instruction.read?_mnemonic _⟩, fun i j same => ?_⟩
  · have hread := assemble?_listing hp
    rw [same, assemble?_listing hq] at hread
    exact (Option.some.inj hread).symm
  · have hread := Instruction.read?_mnemonic i
    rw [same, Instruction.read?_mnemonic j] at hread
    exact (Option.some.inj hread).symm

/-- One of the instructions that are written `LD`, and a word that is none. -/
theorem listing_lossless_store :
    let p : List UInt8 := [0xF3, 0x55, 0x5A, 0xB1]
    let q : List UInt8 := [Instruction.store 3, .unknown ⟨0x5AB1⟩].flatMap fun i =>
      [i.encode.high, i.encode.kk]
    2 ∣ p.length ∧ 2 ∣ q.length ∧ listing p = ["LD [I], V3", "??? 5AB1"] ∧
      listing p = listing q ∧ assemble? (listing p) = some p ∧ p = q := by
  intro p q
  have hp : 2 ∣ p.length := by decide
  have hq : 2 ∣ q.length := by decide
  have same : listing p = listing q := by decide
  exact ⟨hp, hq, by decide, same, listing_lossless.1 p hp, listing_lossless.2.1 p q hp hq same⟩

end ChipEight
