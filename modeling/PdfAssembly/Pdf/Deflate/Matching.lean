import PdfAssembly.Pdf.Deflate.Symbol

/-! Finding runs. Positions at which three bytes with the same hash begin form a chain, the latest
first, and a search follows it a limited way. A run gives way to a longer one that begins at the
next position. -/
namespace PdfAssembly.Pdf.Deflate

def hash (a b c : UInt8) : Nat := ((a.toNat <<< 10) ^^^ (b.toNat <<< 5) ^^^ c.toNat) % Nat.pow 2 15

/-- For each position the one before it in its chain, given the last one for each hash. The
position 0 ends every chain. -/
def links (position : Nat) (last : Array Nat) : Bytes → List Nat
  | a :: b :: c :: rest =>
    let key := hash a b c
    last.getD key 0 :: links (position + 1) (last.setIfInBounds key position) (b :: c :: rest)
  | _ => []

structure Matcher where
  data : Array UInt8
  chain : Array Nat

namespace Matcher

def ofData (data : Bytes) : Matcher where
  data := data.toArray
  chain := (links 0 (Array.replicate (Nat.pow 2 15) 0) data).toArray

def matchLength (matcher : Matcher) (distance : Nat) : (most : Nat) → (position : Nat) → Nat
  | 0, _ => 0
  | most + 1, position =>
    if matcher.data[position]? = matcher.data[position - distance]? then
      matcher.matchLength distance most (position + 1) + 1
    else 0

/-- Whether a run from the earlier position may be longer than this: its last byte and the one
behind it have to be the same. -/
def mayExceed (matcher : Matcher) (length position earlier : Nat) : Bool :=
  matcher.data[earlier + length - 1]? == matcher.data[position + length - 1]? &&
    matcher.data[earlier + length]? == matcher.data[position + length]?

inductive Place
  | ended
  | passed (place : Nat)
  | promising (place : Nat)

/-- Follows so many links of a chain, unless a promising position comes first. -/
def follow (matcher : Matcher) (length reach position : Nat) : (links : Nat) → Nat → Place
  | 0, place => .passed place
  | links + 1, place =>
    let earlier := matcher.chain.getD place 0
    if earlier = 0 ∨ reach < position - earlier then .ended
    else if matcher.mayExceed length position earlier then .promising earlier
    else matcher.follow length reach position links earlier

/-- The longest run met in so many rounds of three links each, if it exceeds the given one. -/
def search (matcher : Matcher) (most reach position : Nat) :
    (rounds : Nat) → (place : Nat) → Run → Run
  | 0, _, best => best
  | rounds + 1, place, best =>
    match matcher.follow best.length reach position 3 place with
    | .ended => best
    | .passed place => matcher.search most reach position rounds place best
    | .promising place =>
      let length := matcher.matchLength (position - place) most position
      let best := if best.length < length then ⟨length, position - place⟩ else best
      if best.length = most then best
      else matcher.search most reach position rounds place best

/-- Short runs are searched for longer. -/
def rounds (length : Nat) : Nat := if length < 32 then 256 else 64

def shortReach : Nat := 8192

def longer? (matcher : Matcher) (position length : Nat) : Option Run :=
  let most := min greatestLength (matcher.data.size - position)
  if most ≤ length then none
  else
    let run := matcher.search most (min position (window - most)) position (rounds length) position
      ⟨length, 0⟩
    if run.distance = 0 ∨ run.distance = position % window ∨
        (run.length = leastLength ∧ shortReach ≤ run.distance) then none
    else some run

/-- Runs of at least this length are taken at once. -/
def sufficient : Nat := 128

/-- The symbols from a position on. A run that is held back began one byte before, and its first
byte is written alone if a longer run begins here. -/
def symbols (matcher : Matcher) :
    (most : Nat) → (position : Nat) → (held : Option (UInt8 × Run)) → List Symbol
  | 0, _, _ => []
  | most + 1, position, held =>
    match matcher.data[position]? with
    | none => []
    | some value =>
      let least := match held with
        | some (_, run) => run.length
        | none => leastLength - 1
      match held, matcher.longer? position least with
      | none, none => .byte value :: matcher.symbols most (position + 1) none
      | some (_, run), none => .copy run :: matcher.symbols most (position + run.length - 1) none
      | held, some run =>
        (held.map fun first => Symbol.byte first.1).toList ++
          if sufficient ≤ run.length then
            .copy run :: matcher.symbols most (position + run.length) none
          else matcher.symbols most (position + 1) (some (value, run))

end Matcher

def symbols (data : Bytes) : List Symbol := (Matcher.ofData data).symbols data.length 0 none

end PdfAssembly.Pdf.Deflate
