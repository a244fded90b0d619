import CarrierSdk.Session.Sdp

/-! The candidate lines that the encoder prints are scanned by the other side. -/
namespace CarrierSdk

/-- A text that a %s conversion of a width reads back whole. -/
structure Word (width : Nat) where
  text : List Char
  nonempty : text ≠ []
  unbroken : text.all (fun c => !isSpace c) = true
  fits : text.length ≤ width
  deriving DecidableEq

/-- The candidates that ice_session_encode_local_sdp prints. The reflexive and the relayed
ones carry a related address. -/
inductive LocalKind
  | host
  | srflx (addr : Word 80) (port : UInt16)
  | relayed (addr : Word 80) (port : UInt16)
  deriving DecidableEq

structure LocalCandidate where
  foundation : Word 32
  compId : UInt8
  prio : UInt32
  addr : Word 80
  port : UInt16
  kind : LocalKind
  deriving DecidableEq

/-- A %u conversion. -/
def printUnsigned (n : Nat) : List Char := Nat.toDigits 10 n

/-- Words with a blank in front of each. -/
def spaced : List (List Char) → List Char
  | [] => []
  | w :: ws => ' ' :: (w ++ spaced ws)

def udpWord : Word 12 := ⟨"UDP".toList, by decide, by decide, by decide⟩

/-- pj_ice_get_cand_type_name, for the candidates that are printed. -/
def LocalKind.name : LocalKind → Word 32
  | .host => ⟨"host".toList, by decide, by decide, by decide⟩
  | .srflx _ _ => ⟨"srflx".toList, by decide, by decide, by decide⟩
  | .relayed _ _ => ⟨"relay".toList, by decide, by decide, by decide⟩

def LocalKind.related : LocalKind → List (List Char)
  | .host => []
  | .srflx addr port => ["raddr".toList, addr.text, "rport".toList, printUnsigned port.toNat]
  | .relayed addr port => ["raddr".toList, addr.text, "rport".toList, printUnsigned port.toNat]

/-- The value of the candidate attribute. -/
def LocalCandidate.line (c : LocalCandidate) : List Char :=
  c.foundation.text ++ spaced ([printUnsigned c.compId.toNat, udpWord.text, printUnsigned c.prio.toNat,
    c.addr.text, printUnsigned c.port.toNat, "typ".toList, c.kind.name.text] ++ c.kind.related)

/-! Scanning word by word. -/

section Scanning
variable {ds : List Directive} {w : List Char} {ws : List (List Char)}

theorem isSpace_of_isDigit {c : Char} (h : c.isDigit = true) : isSpace c = false := by
  have hlow : 48 ≤ c.toNat := by
    simp only [Char.isDigit, Bool.and_eq_true, decide_eq_true_eq] at h
    exact UInt32.le_iff_toNat_le.mp h.1
  have hne : c ≠ ' ' := by
    rintro rfl
    exact absurd hlow (by decide)
  simp only [isSpace, hne, decide_false, Bool.false_or, Bool.and_eq_false_imp, decide_eq_true_eq,
    decide_eq_false_iff_not]
  omega

theorem skipSpace_blank (t : List Char) : skipSpace (' ' :: t) = skipSpace t := by
  rw [skipSpace, List.dropWhile_cons_of_pos (by decide), skipSpace]

/-- A word ends at the blank in front of the next one. -/
theorem takeWhile_spaced {p : Char → Bool} (ws : List (List Char)) (hw : ∀ c ∈ w, p c = true) (hblank : p ' ' = false) :
    (w ++ spaced ws).takeWhile p = w ∧ (w ++ spaced ws).dropWhile p = spaced ws := by
  rw [List.takeWhile_append_of_pos hw, List.dropWhile_append_of_pos hw]
  cases ws with
  | nil => simp [spaced]
  | cons v ws => simp [spaced, hblank]

theorem skipSpace_word (hne : w ≠ []) (hw : w.all (fun c => !isSpace c) = true) (t : List Char) :
    skipSpace (w ++ t) = w ++ t := by
  cases w with
  | nil => exact (hne rfl).elim
  | cons c w =>
    have hc : isSpace c = false := by simpa using List.all_eq_true.mp hw c List.mem_cons_self
    rw [skipSpace, List.cons_append, List.dropWhile_cons_of_neg (by rw [hc]; decide)]

theorem scanInt_blank (t : List Char) : scanInt (' ' :: t) = scanInt t := by
  rw [scanInt, skipSpace_blank, scanInt]

theorem scanInt_printUnsigned (n : Nat) (ws : List (List Char)) :
    scanInt (printUnsigned n ++ spaced ws) = some ((n : Int), spaced ws) := by
  have hdigits : ∀ c ∈ printUnsigned n, c.isDigit = true := fun c hc =>
    Nat.isDigit_of_mem_toDigits (by decide) (by decide) hc
  have hne : printUnsigned n ≠ [] := Nat.toDigits_ne_nil
  have hvalue : digitsValue (printUnsigned n) = n := Nat.ofDigitChars_toDigits (by decide) (by decide)
  obtain ⟨htake, hdrop⟩ := takeWhile_spaced ws hdigits (by decide)
  have hfirst : ∀ c rest, printUnsigned n ++ spaced ws = c :: rest → c.isDigit = true := by
    intro c rest heq
    cases hd : printUnsigned n with
    | nil => exact (hne hd).elim
    | cons d digits =>
      rw [hd, List.cons_append] at heq
      exact hdigits c (by rw [hd, (List.cons.inj heq).1]; exact List.mem_cons_self)
  have hunbroken : (printUnsigned n).all (fun c => !isSpace c) = true := by
    refine List.all_eq_true.mpr fun c hc => ?_
    rw [isSpace_of_isDigit (hdigits c hc)]
    rfl
  rw [scanInt, skipSpace_word hne hunbroken]
  split
  · next rest heq => exact absurd (hfirst _ _ heq) (by decide)
  · next rest heq => exact absurd (hfirst _ _ heq) (by decide)
  · simp only [htake, hdrop, if_neg hne, hvalue, Option.map_some]

theorem sscanf_word {width : Nat} (w : Word width) :
    sscanf (.word width :: ds) (w.text ++ spaced ws) = .word w.text :: sscanf ds (spaced ws) := by
  obtain ⟨htake, -⟩ := takeWhile_spaced (w := w.text) (p := fun c => !isSpace c) ws
    (List.all_eq_true.mp w.unbroken) (by decide)
  rw [sscanf, skipSpace_word w.nonempty w.unbroken, htake, List.take_of_length_le w.fits, if_neg w.nonempty,
    List.drop_left]

theorem sscanf_spaced_word {width : Nat} (w : Word width) :
    sscanf (.word width :: ds) (spaced (w.text :: ws)) = .word w.text :: sscanf ds (spaced ws) := by
  rw [← sscanf_word w, spaced, sscanf, skipSpace_blank, sscanf]

theorem sscanf_int (n : Nat) :
    sscanf (.int :: ds) (spaced (printUnsigned n :: ws)) = .int n :: sscanf ds (spaced ws) := by
  rw [spaced, sscanf, scanInt_blank, scanInt_printUnsigned]

theorem sscanf_literal (hne : w ≠ []) (hw : w.all (fun c => !isSpace c) = true) :
    sscanf (.literal w :: ds) (spaced (w :: ws)) = sscanf ds (spaced ws) := by
  rw [spaced, sscanf, skipSpace_blank, skipSpace_word hne hw, if_pos, List.drop_left]
  exact List.isPrefixOf_iff_prefix.mpr (List.prefix_append _ _)

end Scanning

theorem atoi_printUnsigned (n : Nat) : atoi (printUnsigned n) = n := by
  have hscan := scanInt_printUnsigned n []
  rw [spaced, List.append_nil] at hscan
  rw [atoi, hscan]
  rfl

theorem sscanf_line (c : LocalCandidate) :
    sscanf candidateFormat c.line =
      [.word c.foundation.text, .int c.compId.toNat, .word udpWord.text, .int c.prio.toNat, .word c.addr.text,
        .int c.port.toNat, .word c.kind.name.text] ++
      match c.kind with
      | .host => []
      | .srflx addr port => [.word addr.text, .int port.toNat]
      | .relayed addr port => [.word addr.text, .int port.toNat] := by
  rw [candidateFormat, LocalCandidate.line, sscanf_word]
  simp only [List.cons_append, List.nil_append]
  rw [sscanf_int, sscanf_spaced_word, sscanf_int, sscanf_spaced_word, sscanf_int, sscanf_literal (by decide) (by decide),
    sscanf_spaced_word]
  cases c.kind with
  | host => rfl
  | srflx addr port =>
    rw [LocalKind.related, sscanf_literal (by decide) (by decide), sscanf_spaced_word,
      sscanf_literal (by decide) (by decide), sscanf_int]
    rfl
  | relayed addr port =>
    rw [LocalKind.related, sscanf_literal (by decide) (by decide), sscanf_spaced_word,
      sscanf_literal (by decide) (by decide), sscanf_int]
    rfl

theorem scanCandidate_line (c : LocalCandidate) : (scanCandidate c.line).isSome = true := by
  rw [scanCandidate, sscanf_line]
  cases c.kind with
  | host => rfl
  | srflx addr port => rfl
  | relayed addr port => rfl

end CarrierSdk
