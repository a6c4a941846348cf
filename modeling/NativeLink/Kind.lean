/-!
# Kinds of native values

A kind says how wide a value is and how its bits are read.  The kind `VOID` is
that of a call that answers nothing; it is a result, never an argument.
-/

namespace NativeLink

/-- The kinds a native call can take and answer. -/
inductive Kind where
  | void
  | pointer
  | uint8
  | uint16
  | uint32
  | uint64
  | sint8
  | sint16
  | sint32
  | sint64
  | float
  | double
  deriving DecidableEq, Inhabited

namespace Kind

/-- The name a kind has in a signature. -/
def name : Kind → String
  | void => "VOID"
  | pointer => "POINTER"
  | uint8 => "UINT8"
  | uint16 => "UINT16"
  | uint32 => "UINT32"
  | uint64 => "UINT64"
  | sint8 => "SINT8"
  | sint16 => "SINT16"
  | sint32 => "SINT32"
  | sint64 => "SINT64"
  | float => "FLOAT"
  | double => "DOUBLE"

/-- The kind with the given name, in the case it is written in. -/
def ofName? : String → Option Kind
  | "VOID" => some void
  | "POINTER" => some pointer
  | "UINT8" => some uint8
  | "UINT16" => some uint16
  | "UINT32" => some uint32
  | "UINT64" => some uint64
  | "SINT8" => some sint8
  | "SINT16" => some sint16
  | "SINT32" => some sint32
  | "SINT64" => some sint64
  | "FLOAT" => some float
  | "DOUBLE" => some double
  | _ => none

/-- The word an inspection shows for a kind. -/
def label : Kind → String
  | void => "Void"
  | pointer => "Pointer"
  | uint8 => "UInt8"
  | uint16 => "UInt16"
  | uint32 => "UInt32"
  | uint64 => "UInt64"
  | sint8 => "SInt8"
  | sint16 => "SInt16"
  | sint32 => "SInt32"
  | sint64 => "SInt64"
  | float => "Float"
  | double => "Double"

/-- Every kind is read from its name. -/
@[simp] theorem ofName?_name (k : Kind) : ofName? k.name = some k := by cases k <;> rfl

/-- No kind is read from anything but its name. -/
theorem name_of_ofName? {text : String} {k : Kind} (h : ofName? text = some k) :
    k.name = text := by
  unfold ofName? at h
  split at h <;> cases h <;> rfl

/-- Names tell kinds apart. -/
theorem name_injective {j k : Kind} (h : j.name = k.name) : j = k := by
  have := ofName?_name j
  rw [h, ofName?_name] at this
  exact (Option.some.inj this).symm

end Kind

end NativeLink
