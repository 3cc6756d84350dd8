import Std.Data.ExtTreeMap
import Deadwood.Listing
import Deadwood.SymbolTable

namespace Deadwood

/-!
# Binaries and the tool that reads them

A linked binary is known only through what the object dumper prints about it: a
symbol table and a disassembly listing, both as bytes.  The texts of the commands
are kept here as well, because they appear in the log of a run.
-/

structure Binary where
  symbolTable : ByteArray := .empty
  disassembly : ByteArray := .empty
  /-- The exit status of the object dumper on this binary. -/
  status : Int := 0

/-- The binaries that the object dumper can find, by name. -/
abbrev Binaries := Std.ExtTreeMap String Binary

namespace Binary

/-- The object dumper of the target platform. -/
def dumper : String := "sparc-rtems-objdump"

def symbolCommand (name : String) : String :=
  dumper ++ " -t \"" ++ name ++ "\" "

/-- Find out whether the object dumper can read the binary. -/
def checkCommand (name : String) : String :=
  symbolCommand name ++ ">/dev/null"

/-- Print the names of the functions in the text section. -/
def functionsCommand (name : String) : String :=
  symbolCommand name ++ "| grep \"F  *\\.text\" | awk '{print $NF}'"

/-- Print the disassembly with source text in between. -/
def listingCommand (name : String) : String :=
  dumper ++ " -d -S \"" ++ name ++ "\" "

/-- The functions named by the symbol table, unless one of their names is not
UTF-8. -/
def symbols? (binary : Binary) : Option NameSet :=
  (Text.decode? (SymbolTable.functionFields binary.symbolTable)).map SymbolTable.names

/-- The listing of the disassembly, unless it is not UTF-8. -/
def listing? (binary : Binary) : Option Listing :=
  (Text.decode? binary.disassembly).map Text.trimmedLines

/-- A byte that is no text stands in a row of data and in the first field of a function row. -/
example : symbols? { symbolTable := "1 g O .data 0 caf".toUTF8 ++ ⟨#[0xE9, 0x0A, 0xE9]⟩ ++
    " g F .text 0 foo\n".toUTF8 } = some (.ofList ["foo"]) := by decide +kernel

end Binary

/-- The binary of a name, if there is one and the object dumper reads it without
complaint. -/
def Binaries.readable? (binaries : Binaries) (name : String) : Option Binary :=
  binaries[name]?.filter (·.status = 0)

end Deadwood
