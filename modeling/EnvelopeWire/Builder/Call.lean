import EnvelopeWire.Builder.Basic

/-!
# Builder calls as data

A construction is a sequence of calls. `Call` is the type of the calls, `Call.run` performs one,
and `runCalls` a whole sequence, up to the first call that does not complete.
-/

namespace EnvelopeWire

/-- A call on a builder, with its arguments. -/
inductive Call
  | startObject (fields : UInt16)
  | pushSlot (type : ScalarType) (slot : UInt16) (value default : type.Value)
  | pushSlotOffset (slot : UInt16) (target : Offset)
  | endObject
  | createString (text : String)
  | createByteVector (bytes : Bytes)
  | finish (root : Offset)
  | reset
  | finishedData
  /-- Takes the finished buffer out of the builder, which nothing is done with afterwards. -/
  | takeFinishedData

/-- What a call gives back. -/
inductive Reply
  | done
  | place (offset : Offset)
  | data (bytes : Bytes)
deriving DecidableEq, Repr

/-- Performs one call. -/
def Call.run : Call → Build Reply
  | startObject fields => do
    Build.startObject fields
    return .done
  | pushSlot type slot value default => do
    Build.pushSlot type slot value default
    return .done
  | pushSlotOffset slot target => do
    Build.pushSlotOffset slot target
    return .done
  | endObject => return .place (← Build.endObject)
  | createString text => return .place (← Build.createString text)
  | createByteVector bytes => return .place (← Build.createByteVector bytes)
  | finish root => do
    Build.finish root
    return .done
  | reset => do
    Build.reset
    return .done
  | finishedData => return .data (← Build.finishedData .finishedData)
  | takeFinishedData => return .data (← Build.finishedData .takeFinishedData)

/-- Performs calls in order and gives their replies, or the failure of the first that fails. -/
def runCalls : List Call → Build (List Reply)
  | [] => return []
  | call :: calls => do
    let reply ← call.run
    return reply :: (← runCalls calls)

end EnvelopeWire
