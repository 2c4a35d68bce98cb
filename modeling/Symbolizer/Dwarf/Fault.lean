/-!
Why a piece of debug information cannot be decoded, with the wording of each cause.
-/

namespace Symbolizer.Dwarf

inductive Fault where
  | unexpectedEnd
  | badUnsignedLeb128
  | badSignedLeb128
  | tagZero
  | formZero
  | badHasChildren
  | expectedZero
  | duplicateAbbreviation
  | unknownReservedLength
  | unknownVersion
  | unknownAbbreviation
  | unexpectedNull
  | unknownRangeListsEntry
  | unknownForm
  | unsupportedAddressSize
  | unsupportedOffsetSize
  | unsupportedUnitType
  | unsupportedAttributeForm
  | unsupportedSegmentSize
  | minimumInstructionLengthZero
  | maximumOperationsZero
  | lineRangeZero
  | opcodeBaseZero
  | noEntryAtOffset
  | offsetOutOfBounds
  | missingUnitEntry
  | missingPath
  | expectedString
  | invalidImplicitConst
  | addressOverflow
  deriving DecidableEq, Repr

def Fault.message : Fault → String
  | .unexpectedEnd => "Hit the end of input before it was expected"
  | .badUnsignedLeb128 => "An error parsing an unsigned LEB128 value"
  | .badSignedLeb128 => "An error parsing a signed LEB128 value"
  | .tagZero =>
    "An abbreviation declared that its tag is zero,\n                 but zero is reserved for null records"
  | .formZero =>
    "An attribute specification declared that its form is zero,\n                 but zero is reserved for null records"
  | .badHasChildren =>
    "The abbreviation's has-children byte was not one of\n                 `DW_CHILDREN_\x7byes,no\x7d`"
  | .expectedZero => "Expected a zero, found something else"
  | .duplicateAbbreviation => "Found an abbreviation code that has already been used"
  | .unknownReservedLength => "Found an unknown reserved length value"
  | .unknownVersion => "Found an unknown DWARF version"
  | .unknownAbbreviation => "Found a record with an unknown abbreviation code"
  | .unexpectedNull => "Read a null entry before it was expected."
  | .unknownRangeListsEntry => "Found an unknown range lists entry"
  | .unknownForm => "Found an unknown `DW_FORM_*` type"
  | .unsupportedAddressSize => "The specified address size is not supported"
  | .unsupportedOffsetSize => "The specified offset size is not supported"
  | .unsupportedUnitType => "The unit type is not supported"
  | .unsupportedAttributeForm => "An attribute value has an unsupported form."
  | .unsupportedSegmentSize => "Nonzero segment size not supported yet"
  | .minimumInstructionLengthZero => "The minimum instruction length must not be zero."
  | .maximumOperationsZero => "The maximum operations per instruction must not be zero."
  | .lineRangeZero => "The line range must not be zero."
  | .opcodeBaseZero => "The opcode base must not be zero."
  | .noEntryAtOffset => "There is no entry at the given offset."
  | .offsetOutOfBounds => "The given offset is out of bounds."
  | .missingUnitEntry => "A compilation unit or type unit is missing its top level DIE."
  | .missingPath => "Missing DW_LNCT_path in file entry format."
  | .expectedString => "Expected an attribute value to be a string form."
  | .invalidImplicitConst => "DW_FORM_implicit_const used in an invalid context."
  | .addressOverflow => "An address calculation overflowed."

end Symbolizer.Dwarf
