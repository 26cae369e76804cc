/-!
# Names shared by the server and the client

Both programs define the same transports, codecs, session states and request
types. `main` on either side exits unless the transport and the codec are among
the constructors below.
-/

namespace Vocabulary

inductive Transport where
  | useTCP
  | useUDP
  deriving DecidableEq, Repr

inductive VideoCodec where
  | useH264
  | useMJPEG
  deriving DecidableEq, Repr

/-- The values of `iRTSP_State` on either side. -/
inductive RtspState where
  | init
  | ready
  | playing
  deriving DecidableEq, Repr

/-- The request types; `unrecognised` is the return value -1 of the parser. -/
inductive RequestType where
  | setup
  | play
  | pause
  | teardown
  | unrecognised
  deriving DecidableEq, Repr

end Vocabulary
