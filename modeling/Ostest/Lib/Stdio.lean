import Mathlib.Logic.Function.Basic

/-! The standard output of several processes. To a terminal each line is written at
once; to a pipe or a file what is printed stays in the memory of the process until
it is flushed, and fork gives the child a copy of it. -/
namespace Ostest.Lib.Stdio

/-- `ω` are the processes, and `ι` is what they print. -/
structure Io (ω ι : Type) where
  buffered : Bool
  buffers : ω → List ι
  record : List ι

variable {ω ι : Type} [DecidableEq ω]

def start (buffered : Bool) : Io ω ι := ⟨buffered,fun _ => [],[]⟩

def Io.print (io : Io ω ι) (who : ω) (items : List ι) : Io ω ι :=
  if io.buffered then {io with buffers := Function.update io.buffers who (io.buffers who ++ items)}
  else {io with record := io.record ++ items}

/-- `fflush`, and the end of a process that exits. -/
def Io.flush (io : Io ω ι) (who : ω) : Io ω ι :=
  {io with buffers := Function.update io.buffers who [],record := io.record ++ io.buffers who}

def Io.fork (io : Io ω ι) (parent child : ω) : Io ω ι :=
  {io with buffers := Function.update io.buffers child (io.buffers parent)}

/-- The end of a process that is killed, whose buffer is lost. -/
def Io.kill (io : Io ω ι) (who : ω) : Io ω ι := {io with buffers := Function.update io.buffers who []}

end Ostest.Lib.Stdio
