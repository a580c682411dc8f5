import ColumnLabel.Text.Character
import ColumnLabel.Text.Search

/-!
# ColumnLabel.Service.Address

Where a request goes.  A request is addressed by a reference, which is resolved against the root of the
service.  Of the reference only the path counts: whatever scheme and authority it names, the service is
this one, and a query or a fragment makes no difference.

Dots that stand for a segment are taken out of the path before its escapes are undone, so an escaped dot is
a dot and an escaped slash does not part segments.  Escapes are undone twice, once by the side that sends
the request and once by the side that gets it.

A path leads where its text says, but for a line end or slashes at its end.  A path without dots and
escapes is its own (`withoutDots_eq_self`, `unescape_eq_self`).
-/

namespace ColumnLabel.Service

/-- A reference, taken apart.  What stands behind the path is left out. -/
structure Reference where
  scheme : List Char
  authority : List Char
  path : List Char
  deriving DecidableEq, Repr

namespace Reference

/-- May a character be part of a scheme? -/
def isSchemeChar (c : Char) : Bool := c.isAlphanum || c = '+' || c = '.' || c = '-'

/-- The scheme in front of a reference, and what follows its colon.  A scheme starts with a letter; it may
also be empty. -/
def takeScheme (cs : List Char) : List Char × List Char :=
  let scheme := cs.takeWhile isSchemeChar
  match cs.dropWhile isSchemeChar with
  | ':' :: rest => if scheme.head?.all Char.isAlpha then (scheme, rest) else ([], cs)
  | _ => ([], cs)

/-- Does a character end a path? -/
def endsPath (c : Char) : Bool := c = '?' || c = '#'

/-- The authority in front of a path, and what follows it. -/
def takeAuthority : List Char → List Char × List Char
  | '/' :: '/' :: cs =>
    (cs.takeWhile fun c => !(c = '/' || endsPath c), cs.dropWhile fun c => !(c = '/' || endsPath c))
  | cs => ([], cs)

/-- The parts of a reference. -/
def ofText (cs : List Char) : Reference :=
  let (scheme, rest) := takeScheme cs
  let (authority, rest) := takeAuthority rest
  ⟨scheme, authority, rest.takeWhile (!endsPath ·)⟩

/-- A path without the segments that are one dot or two; two dots take the segment in front of them along,
but never the root. -/
def withoutDots (path : List Char) : List Char :=
  ['/'].intercalate <| (Text.pieces '/' path).foldl (fun kept segment =>
    if segment = ['.'] then kept
    else if segment = ['.', '.'] then if kept = [[]] then kept else kept.dropLast
    else kept ++ [segment]) []

/-- A path without a dot keeps its segments. -/
theorem withoutDots_eq_self {path : List Char} (h : '.' ∉ path) : withoutDots path = path := by
  have hkeep : ∀ (segments kept : List (List Char)), (∀ s ∈ segments, '.' ∉ s) →
      segments.foldl (fun kept segment =>
        if segment = ['.'] then kept
        else if segment = ['.', '.'] then if kept = [[]] then kept else kept.dropLast
        else kept ++ [segment]) kept = kept ++ segments := by
    intro segments
    induction segments with
    | nil => simp
    | cons s rest ih =>
      intro kept hs
      have hdot : '.' ∉ s := hs s (by simp)
      have h1 : s ≠ ['.'] := by rintro rfl; simp at hdot
      have h2 : s ≠ ['.', '.'] := by rintro rfl; simp at hdot
      rw [List.foldl_cons, if_neg h1, if_neg h2, ih _ fun t ht => hs t (by simp [ht])]
      simp
  rw [withoutDots, hkeep _ [] fun s hs hd => h (Text.mem_of_mem_pieces hs hd), List.nil_append,
    Text.intercalate_pieces]

/-- The path of a reference from the root of the service.  A reference with scheme and authority has it;
that of any other one is put under the root, with no slashes but one in front. -/
def fromRoot (r : Reference) : List Char :=
  let path := if r.scheme = [] ∧ r.authority = [] then r.path else withoutDots r.path
  if r.scheme ≠ [] ∧ r.authority ≠ [] then path else withoutDots ('/' :: path.dropWhile (· = '/'))

end Reference

/-- A text with its escapes undone.  An escape is a percent sign with two hexadecimal digits.  No address
of the service has a character beyond ASCII, so the bytes of one may all read as the replacement
character. -/
def unescape : List Char → List Char
  | '%' :: a :: b :: rest =>
    match Text.hexValue? a, Text.hexValue? b with
    | some high, some low =>
      let byte := 16 * high + low
      (if byte < 0x80 then Char.ofNat byte else Char.ofNat 0xFFFD) :: unescape rest
    | _, _ => '%' :: unescape (a :: b :: rest)
  | c :: rest => c :: unescape rest
  | [] => []

/-- A text without a percent sign has no escapes. -/
theorem unescape_eq_self {cs : List Char} (h : '%' ∉ cs) : unescape cs = cs := by
  fun_induction unescape cs with
  | case1 => simp at h
  | case2 => simp at h
  | case3 c rest _ ih => rw [ih fun hm => h (List.mem_cons_of_mem c hm)]
  | case4 => rfl

/-- The path that a reference leads to. -/
def pathOf (reference : String) : List Char :=
  unescape (unescape (Reference.ofText reference.toList).fromRoot)

/-- A path without one line end at its end. -/
def withoutLineEnd (path : List Char) : List Char :=
  if path.getLast? = some '\n' then path.dropLast else path

/-- A path without the slashes at its end. -/
def withoutSlashes (path : List Char) : List Char := (path.reverse.dropWhile (· = '/')).reverse

/-- What a reference leads to, among what is found by its path.  A path that leads nowhere is tried again
without the slashes at its end. -/
def resolve? (find? : String → Option α) (reference : String) : Option α :=
  let path := pathOf reference
  let at? (path : List Char) : Option α := find? (String.ofList (withoutLineEnd path))
  (at? path).or (at? (withoutSlashes path))

end ColumnLabel.Service
