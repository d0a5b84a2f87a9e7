set_option autoImplicit false

/-!
# The program

The name that the program goes by and the version that it reports.
-/
namespace PagePipes.Program

def name : String := "nuggit"

def version : String := "0.3.0"

def versionLine : String := name ++ " " ++ version

end PagePipes.Program
