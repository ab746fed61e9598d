import TextTemplate.CommandLine.Basic

namespace TextTemplate.CommandLine

/-- What kept the system from reading a file. -/
def readFault : IO.Error → ReadFault
  | .noFileOrDirectory .. => .notFound
  | .inappropriateType .. => .isDirectory
  | e => .other (toString e)

def readFile : FileReader IO := fun path => do
  if path.toList.contains '\x00' then return .error .nulInName
  try return .ok (← IO.FS.readBinFile path)
  catch e => return .error (readFault e)

end TextTemplate.CommandLine

open TextTemplate in
def main (args : List String) : IO UInt32 := do
  let outcome ← CommandLine.run CommandLine.readFile args
  IO.print outcome.out
  IO.eprint outcome.err
  return outcome.code.toUInt32
