namespace TextTemplate

inductive NumberFault where
  | noDigits
  | digitsAfterSuffix
  | twoPoints
  | groupingInFraction
  | requiredAfterOptional
  | optionalAfterRequired
  | emptyGroup
  deriving DecidableEq, Repr

inductive ConversionFault where
  | missingPrecision
  | flagsOnFixedText
  | unknownConversion (letter : Char)
  | dangling
  | leftAndZero
  | paddingWithoutWidth
  | numericFlagOnText
  | precisionOnInteger
  | groupingOnHex
  deriving DecidableEq, Repr

/-- Why a kind and its styles are no format. -/
inductive FormatError where
  | unknownKind (kind : String)
  | tooManyStyles (kind : String) (most : Nat)
  | malformedDate (pattern : String)
  | unknownDate (style : String)
  | malformedNumber (pattern : String) (fault : NumberFault)
  | missingPattern
  | malformedConversion (pattern : String) (fault : ConversionFault)
  deriving DecidableEq, Repr

namespace NumberFault

def message : NumberFault → String
  | noDigits => "no digits"
  | digitsAfterSuffix => "digits after the suffix"
  | twoPoints => "two decimal points"
  | groupingInFraction => "grouping in the fraction"
  | requiredAfterOptional => "`0` after `#` in the fraction"
  | optionalAfterRequired => "`#` after `0` in the integer part"
  | emptyGroup => "empty group"

end NumberFault

namespace ConversionFault

def message : ConversionFault → String
  | missingPrecision => "missing precision"
  | flagsOnFixedText => "flags on `%%` or `%n`"
  | unknownConversion c => "unknown conversion `%" ++ c.toString ++ "`"
  | dangling => "dangling `%`"
  | leftAndZero => "`-` and `0` together"
  | paddingWithoutWidth => "padding flag without a width"
  | numericFlagOnText => "numeric flag on `%s`"
  | precisionOnInteger => "precision on an integer conversion"
  | groupingOnHex => "grouping on `%x`"

end ConversionFault

namespace FormatError

def message : FormatError → String
  | unknownKind kind => "unknown format kind `" ++ kind ++ "`"
  | tooManyStyles kind most =>
    "`" ++ kind ++ "` takes at most " ++ toString most ++ " style argument(s)"
  | malformedDate pattern => "malformed date pattern `" ++ pattern ++ "`"
  | unknownDate style => "unknown date style `" ++ style ++ "`"
  | malformedNumber pattern fault =>
    "malformed number pattern `" ++ pattern ++ "`: " ++ fault.message
  | missingPattern => "`format` needs a pattern"
  | malformedConversion pattern fault => "malformed format `" ++ pattern ++ "`: " ++ fault.message

end FormatError

end TextTemplate
