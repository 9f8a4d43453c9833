import Mathlib.Data.List.TakeWhile
import Mathlib.Data.UInt
import Lash.DecimalNames

/-!
# Session cursors

A cursor is a text that holds the revision, the position in the live events and the id of a
session. Hosts keep it and hand it back; what it says is read by parsing.
-/

namespace SessionCursors

open DecimalNames List

def sessionCursorPrefix : String := "lashsc1:"

abbrev SessionRevision := UInt64

structure SessionCursor where
  raw : String
  deriving DecidableEq

inductive SessionCursorError where
  | malformed (message : String)
  | wrongSession (expectedSessionId actualSessionId : String)
  deriving DecidableEq

structure ParsedSessionCursor where
  sessionId : String
  revision : SessionRevision
  livePosition : UInt64
  deriving DecidableEq

def SessionCursor.new (sessionId : String) (revision : SessionRevision)
    (livePosition : UInt64) : SessionCursor where
  raw := sessionCursorPrefix ++ toString revision.toNat ++ ":" ++ toString livePosition.toNat ++
    ":" ++ sessionId

/-! ## Parsing -/

/-- The digits after the number read so far. -/
def parseDigits : Nat → List Char → Except String Nat
  | n, [] => .ok n
  | n, c :: cs =>
    if c.isDigit then
      let next := 10 * n + (c.toNat - '0'.toNat)
      if next < 2 ^ 64 then parseDigits next cs
      else .error "number too large to fit in target type"
    else .error "invalid digit found in string"

/-- The parser of the standard library for `u64`, which allows one plus sign in front. -/
def parseU64 : List Char → Except String UInt64
  | [] => .error "cannot parse integer from empty string"
  | ['+'] => .error "invalid digit found in string"
  | c :: cs => (parseDigits 0 (if c = '+' then cs else c :: cs)).map UInt64.ofNat

/-- At most this many parts, cut where the separator stands; the last part keeps the rest. -/
def splitn (sep : Char) : Nat → List Char → List (List Char)
  | 0, _ => []
  | 1, cs => [cs]
  | n + 2, cs =>
    match cs.dropWhile (· ≠ sep) with
    | [] => [cs]
    | _ :: rest => cs.takeWhile (· ≠ sep) :: splitn sep (n + 1) rest

def stripFront (front cs : List Char) : Option (List Char) :=
  if front.isPrefixOf cs then some (cs.drop front.length) else none

def parsePart (missing invalid : String) (part : Option (List Char)) :
    Except SessionCursorError UInt64 :=
  match part with
  | none => .error (.malformed missing)
  | some digits =>
    (parseU64 digits).mapError fun err => .malformed (invalid ++ ": " ++ err)

def SessionCursor.parse (cursor : SessionCursor) :
    Except SessionCursorError ParsedSessionCursor := do
  let payload ← match stripFront sessionCursorPrefix.toList cursor.raw.toList with
    | some payload => .ok payload
    | none => .error (.malformed "missing cursor prefix")
  let parts := splitn ':' 3 payload
  let revision ← parsePart "missing session revision" "invalid session revision" parts[0]?
  let livePosition ←
    parsePart "missing live replay position" "invalid live replay position" parts[1]?
  match parts[2]?.filter (fun value => !value.isEmpty) with
  | some sessionId =>
    .ok { sessionId := String.ofList sessionId, revision := revision,
          livePosition := livePosition }
  | none => .error (.malformed "missing session id")

/-! ## Reading a cursor back -/

theorem le_ofDigitChars (cs : List Char) (n : Nat) : n ≤ Nat.ofDigitChars 10 cs n := by
  induction cs generalizing n with
  | nil => simp
  | cons c cs ih =>
    rw [Nat.ofDigitChars_cons]
    exact le_trans (by omega) (ih _)

theorem parseDigits_of_digits {cs : List Char} {n : Nat} (digits : ∀ c ∈ cs, c.isDigit = true)
    (fits : Nat.ofDigitChars 10 cs n < 2 ^ 64) :
    parseDigits n cs = .ok (Nat.ofDigitChars 10 cs n) := by
  induction cs generalizing n with
  | nil => simp [parseDigits]
  | cons c cs ih =>
    rw [Nat.ofDigitChars_cons] at fits ⊢
    have hnext := lt_of_le_of_lt (le_ofDigitChars cs _) fits
    rw [parseDigits, if_pos (digits c mem_cons_self)]
    simp only [hnext, if_true]
    exact ih (fun c hc => digits c (mem_cons_of_mem _ hc)) fits

theorem parseU64_toDigits (n : UInt64) : parseU64 (Nat.toDigits 10 n.toNat) = .ok n := by
  have hdigits : ∀ c ∈ Nat.toDigits 10 n.toNat, c.isDigit = true := fun c hc =>
    Nat.isDigit_of_mem_toDigits (by decide) (by decide) hc
  have hvalue : Nat.ofDigitChars 10 (Nat.toDigits 10 n.toNat) 0 = n.toNat :=
    Nat.ofDigitChars_ten_toDigits
  have hparse := parseDigits_of_digits hdigits (by rw [hvalue]; exact n.toNat_lt)
  rw [hvalue] at hparse
  cases hchars : Nat.toDigits 10 n.toNat with
  | nil =>
    have hne := Nat.toDigits_ne_nil (b := 10) (n := n.toNat)
    exact absurd hchars hne
  | cons c cs =>
    rw [hchars] at hparse hdigits
    have hplus : c ≠ '+' := by
      rintro rfl
      have hdigit := hdigits _ mem_cons_self
      exact absurd hdigit (by decide)
    have hcases : parseU64 (c :: cs) = (parseDigits 0 (c :: cs)).map UInt64.ofNat := by
      rw [parseU64, if_neg hplus]
      rintro ⟨⟩
      exact absurd rfl hplus
    rw [hcases, hparse]
    simp [Except.map]

theorem splitn_cons {sep : Char} {first rest : List Char} {n : Nat} (free : sep ∉ first) :
    splitn sep (n + 2) (first ++ sep :: rest) = first :: splitn sep (n + 1) rest := by
  have hall : ∀ c ∈ first, (c ≠ sep : Bool) = true := by
    intro c hc
    simpa using fun h : c = sep => free (h ▸ hc)
  rw [splitn, dropWhile_append_of_pos hall, takeWhile_append_of_pos hall]
  simp

theorem stripFront_append (front cs : List Char) : stripFront front (front ++ cs) = some cs := by
  simp [stripFront]

/-- A cursor says what it was made of, if the session has an id. -/
theorem parse_new {sessionId : String} (named : sessionId ≠ "") (revision : SessionRevision)
    (livePosition : UInt64) :
    (SessionCursor.new sessionId revision livePosition).parse =
      .ok ⟨sessionId, revision, livePosition⟩ := by
  have hcolon : (":" : String).toList = [':'] := rfl
  have hraw : (SessionCursor.new sessionId revision livePosition).raw.toList =
      sessionCursorPrefix.toList ++ (Nat.toDigits 10 revision.toNat ++
        ':' :: (Nat.toDigits 10 livePosition.toNat ++ ':' :: sessionId.toList)) := by
    simp only [SessionCursor.new, String.toList_append, hcolon, toList_numeral, append_assoc,
      cons_append, nil_append]
  have hparts : splitn ':' 3 (Nat.toDigits 10 revision.toNat ++
      ':' :: (Nat.toDigits 10 livePosition.toNat ++ ':' :: sessionId.toList)) =
      [Nat.toDigits 10 revision.toNat, Nat.toDigits 10 livePosition.toNat, sessionId.toList] := by
    rw [splitn_cons (colon_not_mem_toDigits _), splitn_cons (colon_not_mem_toDigits _), splitn]
  have hid : sessionId.toList.isEmpty = false := by
    simpa using named
  rw [SessionCursor.parse, hraw, stripFront_append]
  simp only [bind, Except.bind]
  rw [hparts]
  simp [parsePart, parseU64_toDigits, hid, Except.mapError, Option.filter]

theorem named_of_parse {cursor : SessionCursor} {parsed : ParsedSessionCursor}
    (h : cursor.parse = .ok parsed) : parsed.sessionId ≠ "" := by
  simp only [SessionCursor.parse, bind, Except.bind] at h
  repeat' split at h
  all_goals cases h
  next sessionId hid => simpa using (Option.filter_eq_some_iff.mp hid).2

/-- A cursor reads back as what it was made of exactly when that has a session id, so no two such
make one cursor; and what is read of any text makes a cursor that reads the same. -/
theorem cursor_round_trip :
    (∀ parsed, (SessionCursor.new parsed.sessionId parsed.revision parsed.livePosition).parse =
      .ok parsed ↔ parsed.sessionId ≠ "") ∧
    (∀ one other : ParsedSessionCursor, one.sessionId ≠ "" → other.sessionId ≠ "" →
      SessionCursor.new one.sessionId one.revision one.livePosition =
        SessionCursor.new other.sessionId other.revision other.livePosition → one = other) ∧
    ∀ cursor parsed, SessionCursor.parse cursor = .ok parsed →
      (SessionCursor.new parsed.sessionId parsed.revision parsed.livePosition).parse =
        .ok parsed := by
  refine ⟨fun parsed => ⟨named_of_parse, fun named => parse_new named _ _⟩, ?_,
    fun cursor parsed h => parse_new (named_of_parse h) _ _⟩
  intro one other named named' same
  have hparsed := parse_new named one.revision one.livePosition
  rw [same, parse_new named'] at hparsed
  exact (Except.ok.inj hparsed).symm

end SessionCursors
