import Mathlib.Data.List.Basic
import Mathlib.Data.UInt

/-! Session descriptions as the parser hands them over, and the texts inside them that the
session code scans by itself. -/
namespace CarrierSdk

/-- pjmedia_sdp_attr -/
structure SdpAttr where
  name : List Char
  value : List Char
  deriving DecidableEq

/-- pjmedia_sdp_media, with the first of its formats. -/
structure SdpMedia where
  port : Nat
  connAddr : List Char
  fmt : List Char
  attrs : List SdpAttr
  deriving DecidableEq

/-- pjmedia_sdp_session -/
structure SdpSession where
  originUser : List Char
  name : List Char
  attrs : List SdpAttr
  media : List SdpMedia
  deriving DecidableEq

/-- The value of the last attribute of a name, as a loop that overwrites finds it. -/
def SdpSession.attr (sdp : SdpSession) (name : List Char) : Option (List Char) :=
  (sdp.attrs.reverse.find? fun a => decide (a.name = name)).map SdpAttr.value

def sdpSessionName : List Char := "elastos-ice-session".toList
def ufragName : List Char := "ice-ufrag".toList
def pwdName : List Char := "ice-pwd".toList
def nonceName : List Char := "nonce".toList
def candidateName : List Char := "candidate".toList

/-! The scanning functions of the C library, as far as candidates need them. -/

def isSpace (c : Char) : Bool := c = ' ' || (9 ≤ c.toNat && c.toNat ≤ 13)

def skipSpace (t : List Char) : List Char := t.dropWhile isSpace

def digitsValue (t : List Char) : Nat := t.foldl (fun n c => 10 * n + (c.toNat - 48)) 0

/-- A %d conversion, and what is left of the text. -/
def scanInt (t : List Char) : Option (Int × List Char) :=
  let unsigned (t : List Char) : Option (Nat × List Char) :=
    let digits := t.takeWhile Char.isDigit
    if digits = [] then none else some (digitsValue digits, t.dropWhile Char.isDigit)
  match skipSpace t with
  | '-' :: rest => (unsigned rest).map fun r => (-(r.1 : Int), r.2)
  | '+' :: rest => (unsigned rest).map fun r => ((r.1 : Int), r.2)
  | rest => (unsigned rest).map fun r => ((r.1 : Int), r.2)

def atoi (t : List Char) : Int := ((scanInt t).map Prod.fst).getD 0

/-- A conversion or a literal of a format whose parts are all set apart by blanks. -/
inductive Directive
  | word (width : Nat)
  | int
  | literal (text : List Char)

inductive Scanned
  | word (text : List Char)
  | int (n : Int)
  deriving DecidableEq

/-- The conversions that succeed before the first mismatch. Their number is the result. -/
def sscanf : List Directive → List Char → List Scanned
  | [], _ => []
  | .word width :: ds, t =>
    let word := ((skipSpace t).takeWhile fun c => !isSpace c).take width
    if word = [] then [] else .word word :: sscanf ds ((skipSpace t).drop word.length)
  | .int :: ds, t =>
    match scanInt t with
    | none => []
    | some (n, rest) => .int n :: sscanf ds rest
  | .literal text :: ds, t =>
    if text.isPrefixOf (skipSpace t) then sscanf ds ((skipSpace t).drop text.length) else []

/-! Candidates. -/

inductive CandType | host | srflx | relayed | prflx
  deriving DecidableEq

def candType (t : List Char) : Option CandType :=
  if t = "host".toList then some .host
  else if t = "srflx".toList then some .srflx
  else if t = "relay".toList then some .relayed
  else if t = "prflx".toList then some .prflx
  else none

/-- pj_ice_sess_cand -/
structure IceCand where
  type : CandType
  compId : UInt8
  foundation : List Char
  prio : UInt32
  addr : List Char × UInt16
  relAddr : Option (List Char × UInt16)
  deriving DecidableEq

def candidateFormat : List Directive :=
  [.word 32, .int, .word 12, .int, .word 80, .int, .literal "typ".toList, .word 32,
    .literal "raddr".toList, .word 80, .literal "rport".toList, .int]

/-- The component id and the candidate of an attribute that converts in 7 or 9 fields. -/
def scanCandidate (value : List Char) : Option (Int × IceCand) :=
  match sscanf candidateFormat value with
  | [.word foundation, .int compId, .word _, .int prio, .word ipaddr, .int port, .word type] =>
    (candType type).map fun ty =>
      (compId, ⟨ty, .ofInt compId, foundation, .ofInt prio, (ipaddr, .ofInt port), none⟩)
  | [.word foundation, .int compId, .word _, .int prio, .word ipaddr, .int port, .word type,
      .word raddr, .int rport] =>
    (candType type).map fun ty =>
      (compId, ⟨ty, .ofInt compId, foundation, .ofInt prio, (ipaddr, .ofInt port),
        some (raddr, .ofInt rport)⟩)
  | _ => none

/-- What the ICE handler keeps of the remote side. -/
structure Remote where
  ufrag : List Char
  pwd : List Char
  defAddr : List Char × Nat
  compCnt : Int
  cand : List IceCand
  deriving DecidableEq

def Remote.zero : Remote := ⟨[], [], ([], 0), 0, []⟩

/-- The loop over the attributes of a media, left at the first bad candidate. -/
def remoteCandidates : List SdpAttr → Remote → Option Remote
  | [], remote => some remote
  | a :: rest, remote =>
    if a.name = candidateName then
      match scanCandidate a.value with
      | none => none
      | some (compId, cand) =>
        remoteCandidates rest
          { remote with compCnt := max remote.compCnt compId, cand := remote.cand ++ [cand] }
    else remoteCandidates rest remote

end CarrierSdk
