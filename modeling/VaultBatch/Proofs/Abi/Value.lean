import VaultBatch.Abi.Form

/-!
# Values that do not show their type

A form reads values of a Lean type of its own. A shape describes the same type as data, and reads
values of one type for all shapes, so that whoever takes them apart has to look what they are.
`Shape.ReadsAs` says that a shape reads what a form reads; it is carried from members to lists and
tuples.
-/

namespace VaultBatch.Abi

/-- A type of values. -/
inductive Shape where
  /-- Integers in a word. -/
  | integer
  /-- Byte strings that fill a word. -/
  | fixed
  /-- Byte strings of any length. -/
  | bytes
  /-- Lists. -/
  | list (member : Shape)
  /-- Tuples, in a region of their own. -/
  | tuple (members : List Shape)

/-- A value of some type. -/
inductive Value where
  | integer (word : Word)
  | fixed (bytes : List UInt8)
  | bytes (bytes : List UInt8)
  | list (values : List Value)
  | tuple (values : List Value)

/-- Reads values from as many heads, the first one at an offset. -/
def readRepeated (read : Nat → Option Value) : Nat → Nat → Option (List Value)
  | 0, _ => some []
  | count + 1, offset => do
    let value ← read offset
    let values ← readRepeated read count (offset + 32)
    return value :: values

namespace Shape

mutual
/-- The value whose head is at an offset of a region. -/
def read : Shape → List UInt8 → Nat → Option Value
  | integer, region, offset => (wordAt region offset).map .integer
  | fixed, region, offset => (wordAt region offset).map fun word => .fixed word.toList
  | bytes, region, offset => (Form.bytes.read region offset).map .bytes
  | list member, region, offset => do
    let start ← sizeAt region offset
    let count ← sizeAt region start
    let values ← readRepeated (member.read (region.drop (start + 32))) count 0
    return .list values
  | tuple members, region, offset => do
    let start ← sizeAt region offset
    let values ← readAll members (region.drop start) 0
    return .tuple values

/-- The values whose heads start at an offset of a region. -/
def readAll : List Shape → List UInt8 → Nat → Option (List Value)
  | [], _, _ => some []
  | shape :: shapes, region, offset => do
    let value ← shape.read region offset
    let values ← readAll shapes region (offset + 32)
    return value :: values
end

variable {α β γ : Type} {shape first second third : Shape} {form : Form α} {f : Form α}
  {g : Form β} {h : Form γ}

/-- The shape reads what the form reads. -/
def ReadsAs (shape : Shape) (form : Form α) (value : α → Value) : Prop :=
  ∀ region offset, shape.read region offset = (form.read region offset).map value

/-- An integer is read like a word. -/
theorem integer_readsAs (name : String) : integer.ReadsAs (Form.word name) .integer :=
  fun _ _ => by rw [read]; rfl

/-- A word of bytes is read like a word. -/
theorem fixed_readsAs (name : String) :
    fixed.ReadsAs (Form.word name) fun word => .fixed word.toList :=
  fun _ _ => by rw [read]; rfl

/-- Bytes are read like the form of bytes. -/
theorem bytes_readsAs : bytes.ReadsAs Form.bytes .bytes :=
  fun _ _ => by rw [read]

/-- Values of one shape are read one after the other like those of its form. -/
theorem readRepeated_eq {value : α → Value} (hshape : shape.ReadsAs form value)
    (region : List UInt8) (count offset : Nat) :
    readRepeated (shape.read region) count offset =
      (form.readMany region count offset).map (List.map value) := by
  induction count generalizing offset with
  | zero => rfl
  | succ count ih =>
      simp only [readRepeated, Form.readMany, hshape region, ih, Option.bind_eq_bind,
        Option.pure_def, Option.map_eq_bind, Option.bind_assoc, Option.bind_some,
        Function.comp_def, List.map_cons]

/-- A list is read like the form of lists if its values are read like their form. -/
theorem list_readsAs {value : α → Value} (hshape : shape.ReadsAs form value) :
    (list shape).ReadsAs (Form.list form) fun values => .list (values.map value) := by
  intro region offset
  -- both follow the same offset to the same count; only the shape wraps what is read there
  rw [read]
  simp only [readRepeated_eq hshape, Form.list, Option.bind_eq_bind, Option.pure_def,
    Option.map_eq_bind, Option.bind_assoc, Option.bind_some, Function.comp_def]

/-- Three values side by side are read like those of their forms. -/
theorem readAll_eq {a : α → Value} {b : β → Value} {c : γ → Value} (hfirst : first.ReadsAs f a)
    (hsecond : second.ReadsAs g b) (hthird : third.ReadsAs h c) (region : List UInt8) :
    readAll [first, second, third] region 0 =
      (Form.readThree f g h region).map fun value => [a value.1, b value.2.1, c value.2.2] := by
  simp only [readAll, Form.readThree, hfirst region, hsecond region, hthird region,
    Option.bind_eq_bind, Option.pure_def, Option.map_eq_bind, Option.bind_assoc, Option.bind_some,
    Function.comp_def]

/-- Three values are read like the form of triples if each is read like its form. -/
theorem tuple_readsAs {a : α → Value} {b : β → Value} {c : γ → Value} (hfirst : first.ReadsAs f a)
    (hsecond : second.ReadsAs g b) (hthird : third.ReadsAs h c) :
    (tuple [first, second, third]).ReadsAs (Form.triple f g h) fun value =>
      .tuple [a value.1, b value.2.1, c value.2.2] := by
  intro region offset
  rw [read]
  simp only [readAll_eq hfirst hsecond hthird, Form.triple, Option.bind_eq_bind, Option.pure_def,
    Option.map_eq_bind, Option.bind_assoc, Option.bind_some, Function.comp_def]

end Shape
end VaultBatch.Abi
