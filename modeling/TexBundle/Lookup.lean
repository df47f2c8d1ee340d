import TexBundle.Manifest
import TexBundle.Text.Lowercase

/-!
# Looking up bundle files

A request may differ from the listed path in letter case and may leave out the extension.

* `Lookup.wanted`: a request as it is compared;
* `Lookup.complete?`: the listed file that an extension completes the request to;
* `Lookup.find`: the listed path that a request means.
-/

namespace TexBundle

/-- A request and the listed path it means. -/
structure Resolution where
  requested : Text
  resolved : Text
deriving DecidableEq, Repr

namespace Lookup

/-- Removes `./` from the front as often as it stands there. -/
def dropDotSlashes : Text → Text
  | '.' :: '/' :: t => dropDotSlashes t
  | t => t

/-- A request without surrounding blanks, leading `./` and leading slashes, in lower case. -/
def wanted (requested : Text) : Text :=
  Text.lowercase (Path.dropSlashes (dropDotSlashes (Text.trim requested)))

/-- The listed paths, each with its lower-case form; of several with one form, the first. -/
def byLowercase (paths : List Text) : List (Text × Text) :=
  (paths.map fun p => (Text.lowercase p, p)).eraseDupsBy fun a b => a.1 == b.1

/-- What the lower-case forms that start with `stem` have behind it, with the listed paths, in the
order of the forms. In this order they stand together, at the first form that is not before `stem`. -/
def candidates (stem : Text) (known : List (Text × Text)) : List (Text × Text) :=
  let sorted := known.mergeSort fun a b => Text.le a.1 b.1
  let notBefore := sorted.dropWhile fun (lower, _) => !Text.le stem lower
  let found := notBefore.takeWhile fun (lower, _) => stem.isPrefixOf lower
  found.map fun (lower, path) => (lower.drop stem.length, path)

/-- The least listed path, compared as written. -/
def leastPath? (found : List (Text × Text)) : Option Text :=
  (found.map (·.2)).mergeSort Text.le |>.head?

/-- Completes `stem`, which ends in a dot: the earliest preferred extension that some path has wins,
and if none has one, the least path. -/
def complete? (preferred : List Text) (stem : Text) (known : List (Text × Text)) : Option Text :=
  let found := candidates stem known
  (preferred.findSome? fun ext =>
    (found.find? fun (rest, _) => Text.sameAscii rest ext).map (·.2)) <|> leastPath? found

/-- The listed path that a request means. A request with two dots in a row is refused outright. -/
def find (preferred : List Text) (paths : List Text) (requested : Text) : Except BundleError Text :=
  if Path.climbs requested then throw (.traversal requested)
  else
    let key := wanted requested
    let known := byLowercase paths
    if key = [] then throw (.fileNotFound requested)
    else match known.lookup key with
      | some path => pure path
      | none =>
        if Path.hasExtension key then throw (.fileNotFound requested)
        else match complete? preferred (key ++ ".") known with
          | some path => pure path
          | none => throw (.fileNotFound requested)

end Lookup

end TexBundle
