/-!
# PodCompiler — paths with slashes

Paths as lists of characters cut at slashes, without any file system behind them.

* `SlashPath.base` is the last element of a path and `SlashPath.parent` what stands before it.
* `SlashPath.clean` is the list of elements that remain once empty and `.` elements are dropped
  and every `..` has taken away the element before it.
-/

namespace PodCompiler.SlashPath

/-- The pieces between slashes; there is always at least one. -/
def pieces : List Char → List (List Char)
  | [] => [[]]
  | c :: rest =>
    if c = '/' then [] :: pieces rest
    else
      match pieces rest with
      | [] => [[c]]
      | piece :: more => (c :: piece) :: more

/-- A path without the slashes at its end. -/
def trimEnd (path : List Char) : List Char := path.reverse.dropWhile (· = '/') |>.reverse

/-- What stands after the last slash; all of it if there is none. -/
def afterLastSlash (path : List Char) : List Char :=
  (path.reverse.takeWhile (· ≠ '/')).reverse

/-- The last element of a path: `.` for the empty path, `/` for one that holds slashes only. -/
def base (path : List Char) : List Char :=
  if path = [] then ['.']
  else
    let last := afterLastSlash (trimEnd path)
    if last = [] then ['/'] else last

/-- What stands before the last slash of a path, without slashes at its end: `.` for a path
without slashes, `/` if nothing but slashes stands there. -/
def parent (path : List Char) : List Char :=
  match path.reverse.dropWhile (· ≠ '/') with
  | [] => ['.']
  | _ :: before =>
    let trimmed := trimEnd before.reverse
    if trimmed = [] then ['/'] else trimmed

/-- One step of cleaning: `kept` holds the elements kept so far, the last one first. -/
def keep (kept : List (List Char)) (piece : List Char) : List (List Char) :=
  if piece = [] ∨ piece = ['.'] then kept
  else if piece = ['.', '.'] then kept.drop 1
  else piece :: kept

/-- The elements of a path after cleaning. -/
def clean (path : List Char) : List (List Char) :=
  ((pieces path).foldl keep []).reverse

end PodCompiler.SlashPath
