import PluginHost.Children.Host

/-!
# Plugin programs

A program that serves a plugin looks for the cookie and the versions of the host in its
environment.  If it can serve, it announces where it listens and then answers requests; otherwise
it says why and ends.
-/

namespace PluginHost.Children

open Rpc

/-- What a plugin program does when it is started and listens at an address.  It goes by an offer of
its own, and its state holds what it has written. -/
def launchUnder {σ : Type} (offer : Offer) (program : Program σ) (initial : σ) (written : σ → Bytes)
    (transport : Transport) (address : String) (s : Start) : Launch :=
  match announce offer (s.environment.lookup offer.cookieVariable)
      (s.environment.lookup versionsVariable) with
  | .error e => { stderr := utf8 (e.message ++ "\n"), stage := .ended }
  | .ok version =>
      { stdout := utf8 ((HandshakeLine.new version transport address).display ++ "\n")
        stage := .serving transport (utf8 address)
          (servingPeer program (s.args.map lossyText) initial written) }

/-- What a plugin program of this library does: it knows the offer of the host, and listens over
TCP. -/
def launchOf {σ : Type} (program : Program σ) (initial : σ) (written : σ → Bytes)
    (address : String) (s : Start) : Launch :=
  launchUnder hostOffer program initial written .tcp address s

end PluginHost.Children
