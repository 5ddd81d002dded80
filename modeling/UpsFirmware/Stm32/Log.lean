import UpsFirmware.Lib.Tokens
import UpsFirmware.Stm32.Bms
import UpsFirmware.Stm32.PrintfFormats

/-!
# `UpsFirmware.Stm32.Log`: what the battery monitor writes on USART1

`main` formats every line into `buf`, 128 bytes on its stack, with `sprintf`, which has no
limit, and `uart1_out` sends the buffer up to its terminator. `transmit` is both, on what
the buffer held before; `none` is a write or a read behind its end.

`Report` is what an iteration says: the cell voltages, the balancing mask, the faults with
the fault counter, and whether it shuts down. `readReport` reads one back, with the
`_atoi` of the formatter for the numbers. `log_of_run` is about whole runs. The buffer is
never overrun, and the bytes on the wire read back as the report of every iteration.
-/

set_option autoImplicit false

namespace UpsFirmware.Stm32

open Lib Printf

/-! ### The UART -/

/-- `uart1_out`. `none` is a string without a terminator. -/
def uart1Out : List UInt8 → Option (List UInt8)
  | [] => none
  | ch :: data => if ch = 0 then some [] else (uart1Out data).map (ch :: ·)

theorem uart1Out_append {t : List UInt8} (h : t.all (· ≠ 0) = true) (rest : List UInt8) :
    uart1Out (t ++ 0 :: rest) = some t := by
  induction t with
  | nil => rfl
  | cons ch t ih =>
    rw [List.all_cons, Bool.and_eq_true] at h
    rw [List.cons_append, uart1Out, if_neg (of_decide_eq_true h.1), ih h.2]
    rfl

/-- The arguments of a line. They are promoted to `int`. -/
def vaOf (args : List Nat) : List VaArg := args.map fun n => .word (UInt32.ofNat n)

/-- `sizeof(buf)`. -/
def BUF_SIZE : Nat := 128

section

variable (floatText : Conversion → UInt64 → List UInt8)

/-- An effect on `buf` and on USART1: the buffer behind it, and the bytes sent. -/
def transmit (buf : List UInt8) : Effect → Option (List UInt8 × List UInt8)
  | .uart1Out fmt args =>
    (sprintf floatText (cLiteral fmt) (vaOf args) buf).bind fun r =>
      r.1.bind fun mem => (uart1Out mem).map fun sent => (mem, sent)
  | _ => some (buf, [])

/-! ### The texts -/

/-- The bytes of a text. -/
def literal (s : String) : List UInt8 := s.toList.map Char.toUInt8

/-- A text without conversions is copied. -/
theorem text_literal {lit : List UInt8}
    (h : lit.all (fun ch => ch ≠ 0 && ch ≠ '%'.toUInt8) = true) (fmt : List UInt8)
    (va : List VaArg) :
    text floatText (lit ++ fmt) va = (text floatText fmt va).map (lit ++ ·) := by
  induction lit with
  | nil => simp
  | cons ch lit ih =>
    rw [List.all_cons, Bool.and_eq_true] at h
    have hch : ch ≠ 0 ∧ ch ≠ '%'.toUInt8 := by simpa using h.1
    rw [List.cons_append, text_cons floatText hch.1 hch.2, ih h.2, Option.map_map]
    rfl

/-- Without flags, width and precision a number is its digits. -/
theorem ntoaText_plain (value : Nat) :
    ntoaText value false 10 0 0 Flags.none
      = (lowDigits 10 PRINTF_NTOA_BUFFER_SIZE value).reverse.map (digitChar false) := by
  have hflags : hashFlags value Flags.none = Flags.none := by
    rw [hashFlags]
    split
    · rfl
    · rfl
  rw [ntoaText, hflags]
  simp [formatNumber, zeroWidth, padLeadingZeros, padZeros, handleHash, pushSign, outRevText,
    digitsOf, spaces, Flags.none]

/-- A plain `%d` prints a number from zero on in decimal. -/
theorem text_decimal {w : UInt32} (h : w.toNat < 2 ^ 31) (fmt : List UInt8) (va : List VaArg) :
    text floatText ('%'.toUInt8 :: 'd'.toUInt8 :: fmt) (.word w :: va)
      = (text floatText fmt va).map (decimal w ++ ·) := by
  have hread : evaluate ('d'.toUInt8 :: fmt) (.word w :: va)
      = some (Directive.decimal.conversion, fmt, .word w :: va) :=
    evaluate_spell Directive.decimal fmt (.word w :: va)
  have hvalue : w.toInt32.toInt = w.toNat := by
    have hbits := BitVec.toInt_eq_toNat_cond w.toBitVec
    have hnat : w.toBitVec.toNat = w.toNat := rfl
    show w.toBitVec.toInt = _
    rw [hbits, hnat, if_pos (by omega)]
  have hflags : integerFlags 'd'.toUInt8 Flags.none = Flags.none := by decide
  have htext : integerText Directive.decimal.conversion w.toNat = decimal w := by
    rw [integerText, decide_eq_false (by omega : ¬ ((w.toNat : Int) < 0)), Int.natAbs_natCast]
    show ntoaText w.toNat false 10 0 0 (integerFlags 'd'.toUInt8 Flags.none) = _
    rw [hflags, ntoaText_plain]
    rfl
  have hconvert : convertText floatText Directive.decimal.conversion (.word w :: va)
      = some (decimal w, va) := by
    show some (integerText Directive.decimal.conversion w.toInt32.toInt, va) = _
    rw [hvalue, htext]
  rw [text_percent, hread, Option.bind_some, hconvert, Option.bind_some]

/-- A text without conversions, as a whole format. -/
theorem text_cLiteral {s : String}
    (h : (literal s).all (fun ch => ch ≠ 0 && ch ≠ '%'.toUInt8) = true) (va : List VaArg) :
    text floatText (cLiteral s) va = some (literal s) := by
  show text floatText (literal s ++ [0]) va = _
  rw [text_literal floatText h, text_zero, Option.map_some, List.append_nil]

end

/-- A number has no zero byte. -/
theorem decimal_all (w : UInt32) : (decimal w).all (· ≠ 0) = true := by
  have hall : ∀ d < 10, digitChar false d ≠ 0 := by decide
  rw [List.all_eq_true]
  intro ch hch
  obtain ⟨d, hd, rfl⟩ := List.mem_map.mp hch
  exact decide_eq_true (hall d (lowDigits_lt (by decide) (List.mem_reverse.mp hd)))

/-- A number of at most five digits. -/
theorem length_decimal_le {w : UInt32} (h : w.toNat < 10 ^ 5) : (decimal w).length ≤ 5 := by
  rw [decimal, List.length_map, List.length_reverse]
  exact (length_lowDigits_le_iff (by decide) (by decide) (by decide) _).mpr h

/-! ### Lines -/

section

variable (floatText : Conversion → UInt64 → List UInt8)

/-- Some effects send a text: from any contents of `buf`, and without leaving it. -/
def Sends (fx : List Effect) (t : List UInt8) : Prop :=
  ∀ buf : List UInt8, buf.length = BUF_SIZE →
    ∃ buf', runLog (transmit floatText) buf fx = some (buf', t) ∧ buf'.length = BUF_SIZE

variable {floatText}

theorem Sends.append {fx gx : List Effect} {t u : List UInt8} (hf : Sends floatText fx t)
    (hg : Sends floatText gx u) : Sends floatText (fx ++ gx) (t ++ u) := by
  intro buf hbuf
  obtain ⟨buf₁, hrun₁, hlen₁⟩ := hf buf hbuf
  obtain ⟨buf₂, hrun₂, hlen₂⟩ := hg buf₁ hlen₁
  refine ⟨buf₂, ?_, hlen₂⟩
  rw [runLog_append, hrun₁, Option.bind_some, hrun₂]
  rfl

/-- Effects that are no lines send nothing. -/
theorem sends_quiet {fx : List Effect} (h : ∀ e ∈ fx, ∀ fmt args, e ≠ .uart1Out fmt args) :
    Sends floatText fx [] := by
  induction fx with
  | nil => exact fun buf hbuf => ⟨buf, rfl, hbuf⟩
  | cons e fx ih =>
    intro buf hbuf
    obtain ⟨buf', hrun, hlen⟩ := ih (fun e' he' => h e' (List.mem_cons_of_mem e he')) buf hbuf
    have hquiet : transmit floatText buf e = some (buf, []) := by
      have hne := h e List.mem_cons_self
      cases e with
      | uart1Out fmt args => exact absurd rfl (hne fmt args)
      | _ => rfl
    refine ⟨buf', ?_, hlen⟩
    rw [runLog_cons_of_some _ _ hquiet, hrun]
    rfl

/-- A line that fits the buffer is sent as it is. -/
theorem sends_line {fmt : String} {args : List Nat} {t : List UInt8}
    (ht : text floatText (cLiteral fmt) (vaOf args) = some t) (hzero : t.all (· ≠ 0) = true)
    (hlen : t.length < BUF_SIZE) : Sends floatText [.uart1Out fmt args] t := by
  intro buf hbuf
  have hprint := sprintf_eq ht (Nat.lt_trans hlen (by decide)) buf
  rw [if_pos (by omega)] at hprint
  refine ⟨t ++ 0 :: buf.drop (t.length + 1), ?_, ?_⟩
  · rw [runLog_singleton]
    show (sprintf floatText (cLiteral fmt) (vaOf args) buf).bind _ = _
    rw [hprint, Option.bind_some]
    show (uart1Out (t ++ 0 :: buf.drop (t.length + 1))).map _ = _
    rw [uart1Out_append hzero]
    rfl
  · rw [List.length_append, List.length_cons, List.length_drop]
    omega

/-- A line without conversions. -/
theorem sends_literal {s : String}
    (h : (literal s).all (fun ch => ch ≠ 0 && ch ≠ '%'.toUInt8) = true)
    (hlen : (literal s).length < BUF_SIZE) : Sends floatText [.uart1Out s []] (literal s) := by
  refine sends_line (text_cLiteral floatText h _) ?_ hlen
  rw [List.all_eq_true] at h ⊢
  intro ch hch
  have hboth := h ch hch
  rw [Bool.and_eq_true] at hboth
  exact hboth.1

/-! ### Reports -/

end

/-- What an iteration says about the pack. -/
structure Report where
  c0 : UInt32
  c1 : UInt32
  c2 : UInt32
  c3 : UInt32
  balance : UInt32
  /-- The faults that have a name, and the fault counter, if there is a fault at all. -/
  faults : Option (List UInt8 × UInt32)
  shutting : Bool
deriving DecidableEq

/-- The names of the faults in the log. -/
def faultTokens : List (UInt8 × List UInt8) := faultLines.map fun line => (line.1, literal line.2)

/-- The line of the voltages. -/
def cellsLine (c0 c1 c2 c3 balance : UInt32) : List UInt8 :=
  literal "C0: " ++ (decimal c0 ++ (literal "mV C1: " ++ (decimal c1 ++ (literal "mV C2: " ++
    (decimal c2 ++ (literal "mV C3: " ++ (decimal c3 ++ (literal "mV | Balance: " ++
      (decimal balance ++ literal "\n\r")))))))))

/-- The line of the fault counter. -/
def counterLine (count : UInt32) : List UInt8 :=
  literal "Fault Counter: " ++ (decimal count ++ literal "\n\r")

/-- The faults in `SYS_STAT` that have a name. -/
def namedFaults (stat : UInt8) : List UInt8 :=
  (faultLines.map Prod.fst).filter fun mask => stat &&& mask ≠ 0

/-- The lines of the faults. -/
def faultText : Option (List UInt8 × UInt32) → List UInt8
  | none => []
  | some (masks, count) =>
    (faultTokens.filter fun token => token.1 ∈ masks).flatMap Prod.snd ++ counterLine count

/-- The lines of a report. -/
def Report.render (r : Report) : List UInt8 :=
  cellsLine r.c0 r.c1 r.c2 r.c3 r.balance ++ faultText r.faults ++
    if r.shutting then literal "Shutting down\n\r" else []

namespace Bms

/-- The report of an iteration. -/
def report (s : Bms) (inp : Inputs) : Report :=
  let c := bq76920ReadCellsV s.cal inp.chip
  { c0 := c.c0.toUInt32
    c1 := c.c1.toUInt32
    c2 := c.c2.toUInt32
    c3 := c.c3.toUInt32
    balance := (bq76920BalanceCells c).1.toUInt32
    faults :=
      if inp.sysStat ≠ 0 then
        some (namedFaults inp.sysStat, (checkFaults s.faultCounter inp.sysStat).1.toUInt32)
      else none
    shutting := !inp.pa0 || s.shutdownAtTest inp }

end Bms

section

variable {floatText : Conversion → UInt64 → List UInt8}

/-- The voltages are sent in their line. -/
theorem sends_cells (c : Cells) (balance : UInt8) :
    Sends floatText [.uart1Out "C0: %dmV C1: %dmV C2: %dmV C3: %dmV | Balance: %d\n\r"
        [c.c0.toNat, c.c1.toNat, c.c2.toNat, c.c3.toNat, balance.toNat]]
      (cellsLine c.c0.toUInt32 c.c1.toUInt32 c.c2.toUInt32 c.c3.toUInt32 balance.toUInt32) := by
  have h16 : ∀ w : UInt16, UInt32.ofNat w.toNat = w.toUInt32 := by
    intro w
    have hlt := w.toNat_lt
    refine UInt32.toNat_inj.mp ?_
    rw [UInt16.toNat_toUInt32, UInt32.toNat_ofNat_of_lt' (Nat.lt_trans hlt (by decide))]
  have h8 : UInt32.ofNat balance.toNat = balance.toUInt32 := by
    have hlt := balance.toNat_lt
    refine UInt32.toNat_inj.mp ?_
    rw [UInt8.toNat_toUInt32, UInt32.toNat_ofNat_of_lt' (Nat.lt_trans hlt (by decide))]
  have hsmall : ∀ w : UInt16, w.toUInt32.toNat < 2 ^ 31 := by
    intro w
    have hlt := w.toNat_lt
    rw [UInt16.toNat_toUInt32]
    omega
  have hbal : balance.toUInt32.toNat < 2 ^ 31 := by
    have hlt := balance.toNat_lt
    rw [UInt8.toNat_toUInt32]
    omega
  have hfmt : cLiteral "C0: %dmV C1: %dmV C2: %dmV C3: %dmV | Balance: %d\n\r"
      = literal "C0: " ++ '%'.toUInt8 :: 'd'.toUInt8 :: (literal "mV C1: " ++
        '%'.toUInt8 :: 'd'.toUInt8 :: (literal "mV C2: " ++ '%'.toUInt8 :: 'd'.toUInt8 ::
          (literal "mV C3: " ++ '%'.toUInt8 :: 'd'.toUInt8 :: (literal "mV | Balance: " ++
            '%'.toUInt8 :: 'd'.toUInt8 :: (literal "\n\r" ++ [0]))))) := by decide
  refine sends_line ?_ ?_ ?_
  · show text floatText _ [.word (UInt32.ofNat c.c0.toNat), .word (UInt32.ofNat c.c1.toNat),
      .word (UInt32.ofNat c.c2.toNat), .word (UInt32.ofNat c.c3.toNat),
      .word (UInt32.ofNat balance.toNat)] = _
    rw [hfmt, h16, h16, h16, h16, h8, text_literal floatText (by decide),
      text_decimal floatText (hsmall _), text_literal floatText (by decide),
      text_decimal floatText (hsmall _), text_literal floatText (by decide),
      text_decimal floatText (hsmall _), text_literal floatText (by decide),
      text_decimal floatText (hsmall _), text_literal floatText (by decide),
      text_decimal floatText hbal, text_literal floatText (by decide), text_zero]
    simp only [Option.map_some, List.append_nil]
    rfl
  · simp only [cellsLine, List.all_append, decimal_all]
    decide
  · have hcell : ∀ w : UInt16, (decimal w.toUInt32).length ≤ 5 := by
      intro w
      have hlt := w.toNat_lt
      exact length_decimal_le (by rw [UInt16.toNat_toUInt32]; omega)
    have h0 := hcell c.c0
    have h1 := hcell c.c1
    have h2 := hcell c.c2
    have h3 := hcell c.c3
    have h4 : (decimal balance.toUInt32).length ≤ 5 := by
      have hlt := balance.toNat_lt
      exact length_decimal_le (by rw [UInt8.toNat_toUInt32]; omega)
    have hfixed : (literal "C0: ").length + (literal "mV C1: ").length
        + (literal "mV C2: ").length + (literal "mV C3: ").length
        + (literal "mV | Balance: ").length + (literal "\n\r").length = 41 := by decide
    simp only [cellsLine, List.length_append, BUF_SIZE]
    omega

/-- The fault counter is sent in its line. -/
theorem sends_counter (count : UInt8) :
    Sends floatText [.uart1Out "Fault Counter: %d\n\r" [count.toNat]]
      (counterLine count.toUInt32) := by
  have hlt := count.toNat_lt
  have hword : UInt32.ofNat count.toNat = count.toUInt32 := by
    refine UInt32.toNat_inj.mp ?_
    rw [UInt8.toNat_toUInt32, UInt32.toNat_ofNat_of_lt' (Nat.lt_trans hlt (by decide))]
  have hsmall : count.toUInt32.toNat < 2 ^ 31 := by
    rw [UInt8.toNat_toUInt32]
    omega
  have hfmt : cLiteral "Fault Counter: %d\n\r"
      = literal "Fault Counter: " ++ '%'.toUInt8 :: 'd'.toUInt8 :: (literal "\n\r" ++ [0]) := by
    decide
  refine sends_line ?_ ?_ ?_
  · show text floatText _ [.word (UInt32.ofNat count.toNat)] = _
    rw [hfmt, hword, text_literal floatText (by decide), text_decimal floatText hsmall,
      text_literal floatText (by decide), text_zero]
    simp only [Option.map_some, List.append_nil]
    rfl
  · simp only [counterLine, List.all_append, decimal_all]
    decide
  · have hdigits : (decimal count.toUInt32).length ≤ 5 :=
      length_decimal_le (by rw [UInt8.toNat_toUInt32]; omega)
    have hfixed : (literal "Fault Counter: ").length + (literal "\n\r").length = 17 := by decide
    simp only [counterLine, List.length_append, BUF_SIZE]
    omega

/-- The lines of some faults are sent one after the other. -/
theorem sends_faults {lines : List (UInt8 × String)} (h : ∀ line ∈ lines, line ∈ faultLines) :
    Sends floatText (lines.map fun line => .uart1Out line.2 [])
      ((lines.map fun line => (line.1, literal line.2)).flatMap Prod.snd) := by
  have hgood : faultLines.all (fun line =>
      (literal line.2).all (fun ch => ch ≠ 0 && ch ≠ '%'.toUInt8) &&
        decide ((literal line.2).length < BUF_SIZE)) = true := by decide
  induction lines with
  | nil => exact sends_quiet fun e he => absurd he List.not_mem_nil
  | cons line lines ih =>
    have hline := List.all_eq_true.mp hgood line (h line List.mem_cons_self)
    rw [Bool.and_eq_true] at hline
    exact (sends_literal hline.1 (of_decide_eq_true hline.2)).append
      (ih fun l hl => h l (List.mem_cons_of_mem line hl))

/-- The faults are named in the order of `main`. -/
theorem filter_faultTokens (stat : UInt8) :
    (faultTokens.filter fun token => token.1 ∈ namedFaults stat)
      = (faultLines.filter fun line => stat &&& line.1 ≠ 0).map
          fun line => (line.1, literal line.2) := by
  rw [faultTokens, List.filter_map]
  refine congrArg (List.map _) (List.filter_congr fun line hline => ?_)
  refine decide_eq_decide.mpr ?_
  rw [namedFaults, List.mem_filter]
  constructor
  · intro h
    exact of_decide_eq_true h.2
  · intro h
    exact ⟨List.mem_map_of_mem hline, decide_eq_true h⟩

/-- The faults and their counter are sent. -/
theorem sends_reportFaults (count stat : UInt8) :
    Sends floatText (reportFaults count stat)
      (faultText (if stat ≠ 0 then some (namedFaults stat, count.toUInt32) else none)) := by
  rw [reportFaults]
  by_cases hstat : stat ≠ 0
  · rw [if_pos hstat, if_pos hstat, faultText, filter_faultTokens]
    exact (sends_faults fun line hline => List.mem_of_mem_filter hline).append
      (sends_counter count)
  · rw [if_neg hstat, if_neg hstat]
    exact sends_quiet fun e he => absurd he List.not_mem_nil

/-- Checking the faults sends nothing. -/
theorem sends_checkFaults (count stat : UInt8) :
    Sends floatText (checkFaults count stat).2 [] := by
  refine sends_quiet ?_
  rw [checkFaults]
  intro e he fmt args hline
  subst hline
  split at he
  · split at he
    · simp [bq76920ClearFaults, bq76920OutputEnable] at he
    · simp [bq76920Shutdown] at he
  · cases he

/-- An iteration sends its report. -/
theorem sends_iterate (s : Bms) (inp : Inputs) :
    Sends floatText (s.iterate inp).2 (s.report inp).render := by
  have hbalance : Sends floatText
      (bq76920BalanceCells (bq76920ReadCellsV s.cal inp.chip)).2 [] := by
    refine sends_quiet fun e he fmt args hline => ?_
    subst hline
    cases he with
    | tail _ h => cases h
  have hshutting : Sends floatText
      (if !inp.pa0 || s.shutdownAtTest inp then
        [.uart1Out "Shutting down\n\r" []] ++ bq76920Shutdown else [])
      (if !inp.pa0 || s.shutdownAtTest inp then literal "Shutting down\n\r" else []) := by
    split
    · have hquiet : Sends floatText bq76920Shutdown [] := by
        refine sends_quiet fun e he fmt args hline => ?_
        subst hline
        simp [bq76920Shutdown] at he
      have hline : Sends floatText [.uart1Out "Shutting down\n\r" []]
          (literal "Shutting down\n\r") := sends_literal (by decide) (by decide)
      have hboth := hline.append hquiet
      rw [List.append_nil] at hboth
      exact hboth
    · exact sends_quiet fun e he => absurd he List.not_mem_nil
  have hend : Sends floatText [.gpioToggle .led2, .delay 5000000] [] := by
    refine sends_quiet fun e he fmt args hline => ?_
    subst hline
    simp at he
  have hall := ((((hbalance.append (sends_cells (bq76920ReadCellsV s.cal inp.chip)
    (bq76920BalanceCells (bq76920ReadCellsV s.cal inp.chip)).1)).append
      (sends_checkFaults s.faultCounter inp.sysStat)).append
        (sends_reportFaults (checkFaults s.faultCounter inp.sysStat).1 inp.sysStat)).append
          hshutting).append hend
  rw [List.nil_append, List.append_nil, List.append_nil] at hall
  exact hall

end

/-! ### Reading the log -/

/-- The fault counter, if it is there. Without it there are no faults. -/
def readCounter (masks : List UInt8) (s : List UInt8) :
    Option (Option (List UInt8 × UInt32) × List UInt8) :=
  match expect (literal "Fault Counter: ") s with
  | some s =>
    (expect (literal "\n\r") (atoi s).2).map fun rest => (some (masks, (atoi s).1), rest)
  | none => if masks = [] then some (none, s) else none

/-- The line of the shutdown, if it is there. -/
def readShutting (s : List UInt8) : Bool × List UInt8 :=
  match expect (literal "Shutting down\n\r") s with
  | some s => (true, s)
  | none => (false, s)

/-- A number with the text behind it. -/
def readNumber (lit s : List UInt8) : Option (UInt32 × List UInt8) :=
  (expect lit (atoi s).2).map fun rest => ((atoi s).1, rest)

/-- A report from the log, and what stands behind it. -/
def readReport (s : List UInt8) : Option (Report × List UInt8) :=
  (expect (literal "C0: ") s).bind fun s =>
    (readNumber (literal "mV C1: ") s).bind fun c0 =>
      (readNumber (literal "mV C2: ") c0.2).bind fun c1 =>
        (readNumber (literal "mV C3: ") c1.2).bind fun c2 =>
          (readNumber (literal "mV | Balance: ") c2.2).bind fun c3 =>
            (readNumber (literal "\n\r") c3.2).bind fun balance =>
              let named := readOptional faultTokens balance.2
              (readCounter named.1 named.2).map fun faults =>
                let shutting := readShutting faults.2
                (⟨c0.1, c1.1, c2.1, c3.1, balance.1, faults.1, shutting.1⟩, shutting.2)

/-- All reports of a log, at most `fuel` of them. -/
def readReports : Nat → List UInt8 → Option (List Report)
  | 0, s => if s = [] then some [] else none
  | fuel + 1, s =>
    if s = [] then some []
    else (readReport s).bind fun r => (readReports fuel r.2).map (r.1 :: ·)

/-- The log of the battery monitor from its start on. -/
def readLog (s : List UInt8) : Option (List Report) :=
  (expect (literal "Starting BMS\r\n") s).bind fun s => readReports s.length s

/-- The log ends, or the next report begins. -/
def StartsAnew (s : List UInt8) : Prop := s = [] ∨ literal "C0: " <+: s

/-- A text that is apart from the first one of a report does not stand at its start. -/
theorem StartsAnew.not_startsWith {s token : List UInt8} (h : StartsAnew s)
    (hapart : Apart token (literal "C0: ")) : ¬ token <+: s := by
  rcases h with rfl | ⟨rest, rfl⟩
  · intro hfront
    rw [List.prefix_nil] at hfront
    exact hapart.1 (hfront ▸ List.nil_prefix)
  · exact hapart.not_startsWith rest

/-- A number is read back in front of a text that does not begin with a digit. -/
theorem readNumber_decimal (n : UInt32) {lit : List UInt8}
    (h : lit.head?.map isDigit = some false) (s : List UInt8) :
    readNumber lit (decimal n ++ (lit ++ s)) = some (n, s) := by
  cases lit with
  | nil => cases h
  | cons ch lit =>
    have hch : isDigit ch = false := Option.some.inj h
    rw [readNumber, List.cons_append, atoi_decimal n hch]
    show (expect (ch :: lit) (ch :: lit ++ s)).map _ = _
    rw [expect_append, Option.map_some]

/-- The shutdown line is read back. -/
theorem readShutting_append (shutting : Bool) {rest : List UInt8} (h : StartsAnew rest) :
    readShutting ((if shutting then literal "Shutting down\n\r" else []) ++ rest)
      = (shutting, rest) := by
  cases shutting with
  | true =>
    rw [if_pos rfl, readShutting, expect_append]
  | false =>
    rw [if_neg Bool.false_ne_true, List.nil_append, readShutting,
      expect_eq_none (h.not_startsWith (by decide))]

/-- The names of the faults are pairwise apart. -/
theorem faultTokens_apart : faultTokens.Pairwise fun a b => Apart a.2 b.2 := by decide

/-- The faults are read back, in front of a shutdown or of the next report. -/
theorem readFaults_append {faults : Option (List UInt8 × UInt32)}
    (h : ∀ f, faults = some f → ∃ stat, f.1 = namedFaults stat) (shutting : Bool)
    {rest : List UInt8} (hrest : StartsAnew rest) :
    (readCounter
        (readOptional faultTokens (faultText faults ++
          ((if shutting then literal "Shutting down\n\r" else []) ++ rest))).1
        (readOptional faultTokens (faultText faults ++
          ((if shutting then literal "Shutting down\n\r" else []) ++ rest))).2)
      = some (faults, (if shutting then literal "Shutting down\n\r" else []) ++ rest) := by
  have hcounter : faultTokens.all (fun token =>
      decide (Apart token.2 (literal "Fault Counter: "))) = true := by decide
  have hshutting : faultTokens.all (fun token =>
      decide (Apart token.2 (literal "Shutting down\n\r"))) = true := by decide
  have hcells : faultTokens.all (fun token =>
      decide (Apart token.2 (literal "C0: "))) = true := by decide
  cases faults with
  | none =>
    -- What stands behind the voltages is a shutdown or the next report.
    have hnone : ∀ token : List UInt8, Apart token (literal "Shutting down\n\r") →
        Apart token (literal "C0: ") →
        ¬ token <+: (if shutting then literal "Shutting down\n\r" else []) ++ rest := by
      intro token hshut hcell
      cases shutting with
      | true => exact hshut.not_startsWith rest
      | false => exact hrest.not_startsWith hcell
    have hread := readOptional_append faultTokens_apart
      (fun token htoken => hnone token.2
        (of_decide_eq_true (List.all_eq_true.mp hshutting token htoken))
        (of_decide_eq_true (List.all_eq_true.mp hcells token htoken))) fun _ => false
    have hempty : faultTokens.filter (fun _ => false) = [] := List.filter_false faultTokens
    rw [hempty] at hread
    show readCounter (readOptional faultTokens ([] ++ _)).1
      (readOptional faultTokens ([] ++ _)).2 = _
    rw [show ([] : List (UInt8 × List UInt8)).flatMap Prod.snd = [] from rfl] at hread
    rw [hread, readCounter, expect_eq_none (hnone _ (by decide) (by decide))]
    rfl
  | some f =>
    obtain ⟨stat, hmasks⟩ := h f rfl
    obtain ⟨masks, count⟩ := f
    dsimp only at hmasks
    subst hmasks
    have hbehind : ∀ token ∈ faultTokens, ¬ token.2 <+:
        counterLine count
          ++ ((if shutting then literal "Shutting down\n\r" else []) ++ rest) := by
      intro token htoken
      rw [counterLine, List.append_assoc]
      exact (of_decide_eq_true (List.all_eq_true.mp hcounter token htoken)).not_startsWith _
    have hread := readOptional_append faultTokens_apart hbehind
      fun token => decide (token.1 ∈ namedFaults stat)
    have hnames : (faultTokens.filter fun token => token.1 ∈ namedFaults stat).map Prod.fst
        = namedFaults stat := by
      rw [filter_faultTokens, List.map_map, namedFaults, List.filter_map]
      rfl
    rw [hnames] at hread
    rw [faultText, List.append_assoc, hread, readCounter, counterLine, List.append_assoc,
      List.append_assoc, expect_append]
    have hnumber := @readNumber_decimal count (literal "\n\r") (by decide)
      ((if shutting then literal "Shutting down\n\r" else []) ++ rest)
    rw [readNumber] at hnumber
    obtain ⟨rest', hexpect, heq⟩ := Option.map_eq_some_iff.mp hnumber
    rw [Prod.mk.injEq] at heq
    show (expect (literal "\n\r") _).map _ = _
    rw [hexpect, Option.map_some, heq.1, heq.2]

/-- The faults of a report are those of a value of `SYS_STAT`. -/
def Report.Sound (r : Report) : Prop :=
  ∀ f, r.faults = some f → ∃ stat, f.1 = namedFaults stat

/-- A report is read back, in front of the next one or at the end of the log. -/
theorem readReport_render {r : Report} (h : r.Sound) {rest : List UInt8}
    (hrest : StartsAnew rest) : readReport (r.render ++ rest) = some (r, rest) := by
  have hsplit : r.render ++ rest
      = cellsLine r.c0 r.c1 r.c2 r.c3 r.balance ++ (faultText r.faults ++
          ((if r.shutting then literal "Shutting down\n\r" else []) ++ rest)) := by
    rw [Report.render, List.append_assoc, List.append_assoc]
  have hfaults := readFaults_append h r.shutting hrest
  have hshutting := readShutting_append r.shutting hrest
  rw [hsplit]
  generalize faultText r.faults ++
    ((if r.shutting then literal "Shutting down\n\r" else []) ++ rest) = behind at hfaults ⊢
  simp only [cellsLine, List.append_assoc]
  rw [readReport, expect_append, Option.bind_some, readNumber_decimal _ (by decide),
    Option.bind_some, readNumber_decimal _ (by decide), Option.bind_some,
    readNumber_decimal _ (by decide), Option.bind_some, readNumber_decimal _ (by decide),
    Option.bind_some, readNumber_decimal _ (by decide), Option.bind_some]
  dsimp only
  rw [hfaults, Option.map_some, hshutting]

/-- A report begins with its own first text. -/
theorem startsAnew_render (r : Report) (rest : List UInt8) : StartsAnew (r.render ++ rest) := by
  refine Or.inr ?_
  rw [Report.render, cellsLine, List.append_assoc, List.append_assoc, List.append_assoc]
  exact List.prefix_append _ _

/-- Some reports are read back from their log. -/
theorem readReports_flatMap {rs : List Report} (h : ∀ r ∈ rs, r.Sound) {fuel : Nat}
    (hfuel : rs.length ≤ fuel) : readReports fuel (rs.flatMap Report.render) = some rs := by
  induction rs generalizing fuel with
  | nil =>
    cases fuel with
    | zero => rfl
    | succ fuel => rfl
  | cons r rs ih =>
    obtain ⟨fuel, rfl⟩ : ∃ k, fuel = k + 1 := by
      rw [List.length_cons] at hfuel
      exact ⟨fuel - 1, by omega⟩
    have hrest : StartsAnew (rs.flatMap Report.render) := by
      cases rs with
      | nil => exact Or.inl rfl
      | cons r' rs => exact startsAnew_render r' _
    have hread := readReport_render (h r List.mem_cons_self) hrest
    have hothers := ih (fun r' hr' => h r' (List.mem_cons_of_mem r hr'))
      (Nat.le_of_succ_le_succ hfuel)
    have hne : r.render ++ rs.flatMap Report.render ≠ [] := by
      intro hnil
      rw [hnil] at hread
      cases hread
    rw [List.flatMap_cons, readReports, if_neg hne, hread, Option.bind_some, hothers]
    rfl

/-- A report takes room in the log. -/
theorem length_le_flatMap_render (rs : List Report) :
    rs.length ≤ (rs.flatMap Report.render).length := by
  induction rs with
  | nil => exact Nat.le_refl 0
  | cons r rs ih =>
    have hcells : 0 < (literal "C0: ").length := by decide
    rw [List.flatMap_cons, List.length_append, List.length_cons, Report.render, cellsLine,
      List.length_append, List.length_append, List.length_append]
    omega

/-! ### Runs -/

section Runs

variable (b : BootInputs) (env : Nat → Inputs)

theorem Bms.report_sound (s : Bms) (inp : Inputs) : (s.report inp).Sound := by
  intro f hf
  refine ⟨inp.sysStat, ?_⟩
  have hfaults : (s.report inp).faults = if inp.sysStat ≠ 0 then
      some (namedFaults inp.sysStat, (checkFaults s.faultCounter inp.sysStat).1.toUInt32)
    else none := rfl
  rw [hfaults] at hf
  split at hf
  · cases hf
    rfl
  · cases hf

/-- The part before the loop sends its line. -/
theorem sends_startUp {floatText : Conversion → UInt64 → List UInt8} :
    Sends floatText (startUp b).2 (literal "Starting BMS\r\n") := by
  have hline : Sends floatText [.uart1Out "Starting BMS\r\n" []]
      (literal "Starting BMS\r\n") := sends_literal (by decide) (by decide)
  have hbefore : Sends floatText [.gpioSet .led1, .delay 1000000, .gpioClear .led1] [] := by
    refine sends_quiet fun e he fmt args h => ?_
    subst h
    simp at he
  have hafter : ∀ fx : List Effect, (∀ e ∈ fx, ∀ fmt args, e ≠ .uart1Out fmt args) →
      Sends floatText ([.gpioSet .led1, .delay 1000000, .gpioClear .led1] ++
        ([.uart1Out "Starting BMS\r\n" []] ++ fx)) (literal "Starting BMS\r\n") := by
    intro fx hfx
    have hall := hbefore.append (hline.append (sends_quiet hfx))
    rw [List.nil_append, List.append_nil] at hall
    exact hall
  rw [startUp]
  split
  · refine hafter [.writeReg CC_CFG 0x19] fun e he fmt args h => ?_
    subst h
    simp at he
  · refine hafter (.writeReg CC_CFG 0x19 :: ((bq76920Init b.chip).2 ++ bq76920ClearFaults ++
      bq76920OutputEnable)) fun e he fmt args h => ?_
    subst h
    simp [bq76920Init, bq76920SetUv, bq76920SetOv, bq76920ClearFaults,
      bq76920OutputEnable] at he

/-- The effects of a run of `n` iterations. -/
def effectsOf (s₀ : Bms) (n : Nat) : List Effect :=
  (List.range n).flatMap fun i => ((loopAt env s₀ i).iterate (env i)).2

/-- The reports of a run of `n` iterations. -/
def reportsOf (s₀ : Bms) (n : Nat) : List Report :=
  (List.range n).map fun i => (loopAt env s₀ i).report (env i)

/-- A run sends its reports. -/
theorem sends_effectsOf {floatText : Conversion → UInt64 → List UInt8} (s₀ : Bms) (n : Nat) :
    Sends floatText (effectsOf env s₀ n) ((reportsOf env s₀ n).flatMap Report.render) := by
  induction n with
  | zero => exact sends_quiet fun e he => absurd he List.not_mem_nil
  | succ n ih =>
    rw [effectsOf, reportsOf, List.range_succ, List.flatMap_append, List.map_append,
      List.flatMap_append, List.flatMap_singleton, List.map_singleton, List.flatMap_singleton]
    exact ih.append (sends_iterate _ _)

/-- The effects of `main` up to iteration `n`. After a hard fault there are no
iterations. -/
def mainEffects (n : Nat) : List Effect :=
  (startUp b).2 ++ ((startUp b).1.map fun s₀ => effectsOf env s₀ n).getD []

/-- The reports of `main` up to iteration `n`. -/
def mainReports (n : Nat) : List Report :=
  ((startUp b).1.map fun s₀ => reportsOf env s₀ n).getD []

/-- The log of a run. However many iterations there are, and whatever `buf` held before, no
line leaves its 128 bytes, and the bytes that USART1 sends read back as the reports of all
iterations: the four voltages, the balancing mask, the named faults with the fault
counter, and the shutdowns. -/
theorem log_of_run (floatText : Conversion → UInt64 → List UInt8) (n : Nat)
    {buf : List UInt8} (hbuf : buf.length = BUF_SIZE) :
    ∃ buf' sent, runLog (transmit floatText) buf (mainEffects b env n) = some (buf', sent) ∧
      buf'.length = BUF_SIZE ∧ readLog sent = some (mainReports b env n) := by
  have hread : ∀ {rs : List Report}, (∀ r ∈ rs, r.Sound) →
      readLog (literal "Starting BMS\r\n" ++ rs.flatMap Report.render) = some rs := by
    intro rs hrs
    rw [readLog, expect_append, Option.bind_some]
    exact readReports_flatMap hrs (length_le_flatMap_render rs)
  rw [mainEffects, mainReports]
  cases (startUp b).1 with
  | none =>
    obtain ⟨buf', hrun, hlen⟩ := (sends_startUp b).append
      (sends_quiet fun e he => absurd he List.not_mem_nil) buf hbuf
    exact ⟨buf', _, hrun, hlen, hread fun r hr => absurd hr List.not_mem_nil⟩
  | some s₀ =>
    obtain ⟨buf', hrun, hlen⟩ := (sends_startUp b).append (sends_effectsOf env s₀ n) buf hbuf
    refine ⟨buf', _, hrun, hlen, hread fun r hr => ?_⟩
    obtain ⟨i, -, rfl⟩ := List.mem_map.mp hr
    exact Bms.report_sound _ _

/-- Three iterations of a chip that reports an over-voltage, with a buffer of zeros. -/
theorem log_of_run_overVoltage :
    ∃ buf' sent, runLog (transmit fun _ _ => []) (List.replicate 128 0)
        (mainEffects ⟨0x19, fun _ _ => 0, []⟩ (fun _ => ⟨fun _ _ => 4, true, [], []⟩) 3)
          = some (buf', sent) ∧ buf'.length = 128 ∧
      readLog sent = some (mainReports ⟨0x19, fun _ _ => 0, []⟩
        (fun _ => ⟨fun _ _ => 4, true, [], []⟩) 3) :=
  log_of_run _ _ _ 3 List.length_replicate

end Runs

end UpsFirmware.Stm32
