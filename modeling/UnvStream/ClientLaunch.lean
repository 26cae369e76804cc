import UnvStream.ServerOptions
import UnvStream.ShellWords

/-!
# Starting both programs

`runClient` has a shell start the client, with numbers for the transport and the codec its user
has named, and a player that reads what the client writes. The server is started with options of
its own, and both programs have to come to the same ports, transport and codec.
-/

namespace ClientLaunch

open Vocabulary RtspMessages GetoptLong ServerOptions
open ShellWords hiding Word

end ClientLaunch
