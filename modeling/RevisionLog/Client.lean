import RevisionLog.Patch

/-!
# Clients of readers

A client of a reader asks it one request after another and sees the answers, nothing else: two
readers that give equal answers look the same to it. `Reader.answer` is what a reader does on a
request, and `Client.run` what becomes of a reader that a client was given.
-/

namespace RevisionLog

/-- What can be asked of a reader. -/
inductive Request
  | length
  | position
  | seek (target : Nat)
  | skip (count : Nat)
  | reset
  | isEmpty
  | read (count : Nat)
  | uint8
  | int32
  | int64
  | rest
  /-- Decodes one fragment. -/
  | fragment
  /-- Decodes fragments up to the end. -/
  | patch
  /-- Applies a patch to what the reader shows. -/
  | apply (declared : Int32) (patch : Patch)

/-- What a reader answers if it does not fail. -/
inductive Value
  | done
  | number (n : Int)
  | flag (b : Bool)
  | bytes (bytes : Bytes)
  | fragment (fragment : Fragment)
  | patch (patch : Patch)

/-- What a reader answers. -/
abbrev Answer := Except Fault Value

namespace Reader

/-- The action that answers a request. -/
def perform : Request → Action Value
  | .length => do return .number (← getLength)
  | .position => fun reader => (.ok (.number reader.position), reader)
  | .seek target => do seek target; return .done
  | .skip count => do skip count; return .done
  | .reset => do reset; return .done
  | .isEmpty => do return .flag (← isEmpty)
  | .read count => do return .bytes (← read count)
  | .uint8 => do return .number (← uint8).toNat
  | .int32 => do return .number (← int32).toInt
  | .int64 => do return .number (← int64).toInt
  | .rest => do return .bytes (← rest)
  | .fragment => do return .fragment (← Fragment.read)
  | .patch => do return .patch (← Patch.read)
  | .apply declared patch => do return .bytes (← Patch.apply declared patch)

/-- The answer to a request, and the reader after it. -/
def answer (reader : Reader) (request : Request) : Answer × Reader := perform request reader

end Reader

/-- A program that uses a reader and ends with a result. -/
inductive Client (α : Type)
  | done (result : α)
  | ask (request : Request) (next : Answer → Client α)

namespace Client

/-- The result of a client on a reader, and the reader as the client leaves it. -/
def run {α : Type} : Client α → Reader → α × Reader
  | done result, reader => (result, reader)
  | ask request next, reader =>
    let (answer, reader) := reader.answer request
    (next answer).run reader

/-- Asks all requests in turn and ends with the result for the answers, in the same order. -/
def askAll {α : Type} (result : List Answer → α) : List Request → Client α
  | [] => done (result [])
  | request :: requests =>
    ask request fun answer => askAll (fun answers => result (answer :: answers)) requests

end Client

end RevisionLog
