import AtlasCore.Lib.Json

/-!
# JSON laid out

`json.dumps` writes a value on one line, or with `indent` an item to a line.  The two differ in the
white space around the items of a container alone, so a writer is given its `Layout`: what stands
before the first item, between two and after the last, at each depth.

`write_compact` says that `render` is the writer with the layout of one line.
-/

set_option autoImplicit false

namespace Py

namespace Json

/-- The white space around the items of a container, by how deep it is. -/
structure Layout where
  opening : ℕ → Str
  between : ℕ → Str
  closing : ℕ → Str
  opens : ∀ level, (opening level).all isWs = true
  separates : ∀ level, (between level).all isWs = true
  closes : ∀ level, (closing level).all isWs = true

/-- One line, with a blank after each separator. -/
def Layout.compact : Layout where
  opening _ := []
  between _ := [ch ' ']
  closing _ := []
  opens _ := rfl
  separates _ := rfl
  closes _ := rfl

/-- A line feed, and `indent` spaces for each level. -/
def newline (indent level : ℕ) : Str := lf :: List.replicate (indent * level) (ch ' ')

theorem newline_blank (indent level : ℕ) : (newline indent level).all isWs = true := by
  rw [newline, List.all_cons, Bool.and_eq_true, List.all_eq_true]
  refine ⟨by decide, fun c hc ↦ ?_⟩
  rw [List.eq_of_mem_replicate hc]
  decide

/-- An item to a line, as `indent` has it. -/
def Layout.indented (indent : ℕ) : Layout where
  opening level := newline indent (level + 1)
  between level := newline indent (level + 1)
  closing level := newline indent level
  opens _ := newline_blank _ _
  separates _ := newline_blank _ _
  closes _ := newline_blank _ _

mutual
/-- The text of a value at some depth. -/
def write (L : Layout) (level : ℕ) : Json → Str
  | null => render null
  | bool b => render (bool b)
  | int z => render (int z)
  | float f => render (float f)
  | str s => render (str s)
  | arr [] => render (arr [])
  | arr (v :: rest) =>
    ch '[' :: (L.opening level ++ (write L (level + 1) v ++ writeItems L level rest))
  | obj [] => render (obj [])
  | obj ((k, v) :: rest) =>
    ch '{' :: (L.opening level ++
      (renderString k ++ (Py.str ": " ++ (write L (level + 1) v ++ writeFields L level rest))))

/-- The rest of a list, from the comma on. -/
def writeItems (L : Layout) (level : ℕ) : List Json → Str
  | [] => L.closing level ++ [ch ']']
  | v :: rest =>
    ch ',' :: (L.between level ++ (write L (level + 1) v ++ writeItems L level rest))

/-- The rest of a dict, from the comma on. -/
def writeFields (L : Layout) (level : ℕ) : Fields → Str
  | [] => L.closing level ++ [ch '}']
  | (k, v) :: rest =>
    ch ',' :: (L.between level ++
      (renderString k ++ (Py.str ": " ++ (write L (level + 1) v ++ writeFields L level rest))))
end

theorem comma_str : Py.str ", " = [ch ',', ch ' '] := by decide

mutual
/-- On one line it is the text of `render`. -/
theorem write_compact : ∀ (level : ℕ) (v : Json), write .compact level v = render v
  | _, .null => by rw [write]
  | _, .bool _ => by rw [write]
  | _, .int _ => by rw [write]
  | _, .float _ => by rw [write]
  | _, .str _ => by rw [write]
  | _, .arr [] => by rw [write]
  | level, .arr (v :: rest) => by
    rw [write, render, write_compact (level + 1) v, writeItems_compact level rest]
    rfl
  | _, .obj [] => by rw [write]
  | level, .obj ((k, v) :: rest) => by
    rw [write, render, write_compact (level + 1) v, writeFields_compact level rest,
      List.append_assoc]
    rfl

theorem writeItems_compact :
    ∀ (level : ℕ) (items : List Json), writeItems .compact level items = renderItems items
  | _, [] => by
    rw [writeItems, renderItems]
    rfl
  | level, v :: rest => by
    rw [writeItems, renderItems, write_compact (level + 1) v, writeItems_compact level rest,
      comma_str]
    rfl

theorem writeFields_compact :
    ∀ (level : ℕ) (fields : Fields), writeFields .compact level fields = renderFields fields
  | _, [] => by
    rw [writeFields, renderFields]
    rfl
  | level, (k, v) :: rest => by
    rw [writeFields, renderFields, write_compact (level + 1) v, writeFields_compact level rest,
      comma_str, List.append_assoc]
    rfl
end

/-- `json.dumps(v, ensure_ascii=False, indent=indent)`, or `none` where it raises. -/
def dumpsIndented (indent : ℕ) (v : Json) : Option Str :=
  if every intFits (fun _ ↦ true) v then some (write (.indented indent) 0 v) else none

end Json

end Py
