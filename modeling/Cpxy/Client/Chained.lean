import Cpxy.Client.Redirected
import Cpxy.Http.Proxy

/-!
# Redirected connections over an HTTP upstream

Library `Client`. Source `src/client/tcp.rs:42–77`, `src/protocol/http/mod.rs:31–75` and
`src/protocol/http/server.rs:26–77`. Two programs stand between the client and its destination:
the one it was redirected to, and the HTTP proxy that this one asks. Each copies both ways, until
one of its directions is done.
-/

namespace Cpxy.Client

open Cpxy.Base Cpxy.Http Cpxy.Io Cpxy.Net

variable {τ τ' : Type}

private def chainedProxy : HttpProxy := ⟨.name "proxy" 3128, false, none⟩

private def chainedDst : Address := .ip (.v6 ⟨1⟩ 443 0 0)

private def chainedParser : Httparse :=
  onlyWord (chainedProxy.connectHead chainedDst) "invalid token"
    ⟨some "CONNECT", some chainedDst.display, chainedProxy.headers⟩

private def chainedClient : List Chunk := [⟨[7], by decide⟩, ⟨[8], by decide⟩]

private def chainedUp : List Chunk :=
  [⟨chainedProxy.connectHead chainedDst ++ [7],
    List.append_ne_nil_of_left_ne_nil (chainedProxy.connectHead_ne_nil chainedDst) _⟩]

private def chainedDown : List Chunk := [⟨established, by decide⟩]

private def chainedReplies : List Chunk := [⟨[9], by decide⟩]

end Cpxy.Client
