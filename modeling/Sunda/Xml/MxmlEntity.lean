import Sunda.Base.Bisect
import Sunda.Base.Bytes

/-!
# Character entities

The names of characters in XML text (`pubfun/xml/mxml-entity.c`). `_mxml_entity_cb` looks a name up with a
binary search in a table that has to be in the order of `strcmp`. It is (`entities_ascending`), so the search
finds every name of the table and no other (`mxmlEntityGetValue_eq_some_iff`). `mxmlEntityGetName` names the
characters that are not written as they are.
-/

namespace Sunda

open Bytes

/-- The table of `_mxml_entity_cb`. -/
def entities : List (List UInt8 × ℕ) :=
  [(text "AElig", 198), (text "Aacute", 193), (text "Acirc", 194), (text "Agrave", 192),
    (text "Alpha", 913), (text "Aring", 197), (text "Atilde", 195), (text "Auml", 196), (text "Beta", 914),
    (text "Ccedil", 199), (text "Chi", 935), (text "Dagger", 8225), (text "Delta", 916),
    (text "Dstrok", 208), (text "ETH", 208), (text "Eacute", 201), (text "Ecirc", 202),
    (text "Egrave", 200), (text "Epsilon", 917), (text "Eta", 919), (text "Euml", 203),
    (text "Gamma", 915), (text "Iacute", 205), (text "Icirc", 206), (text "Igrave", 204),
    (text "Iota", 921), (text "Iuml", 207), (text "Kappa", 922), (text "Lambda", 923), (text "Mu", 924),
    (text "Ntilde", 209), (text "Nu", 925), (text "OElig", 338), (text "Oacute", 211), (text "Ocirc", 212),
    (text "Ograve", 210), (text "Omega", 937), (text "Omicron", 927), (text "Oslash", 216),
    (text "Otilde", 213), (text "Ouml", 214), (text "Phi", 934), (text "Pi", 928), (text "Prime", 8243),
    (text "Psi", 936), (text "Rho", 929), (text "Scaron", 352), (text "Sigma", 931), (text "THORN", 222),
    (text "Tau", 932), (text "Theta", 920), (text "Uacute", 218), (text "Ucirc", 219),
    (text "Ugrave", 217), (text "Upsilon", 933), (text "Uuml", 220), (text "Xi", 926),
    (text "Yacute", 221), (text "Yuml", 376), (text "Zeta", 918), (text "aacute", 225),
    (text "acirc", 226), (text "acute", 180), (text "aelig", 230), (text "agrave", 224),
    (text "alefsym", 8501), (text "alpha", 945), (text "amp", 38), (text "and", 8743), (text "ang", 8736),
    (text "apos", 39), (text "aring", 229), (text "asymp", 8776), (text "atilde", 227), (text "auml", 228),
    (text "bdquo", 8222), (text "beta", 946), (text "brkbar", 166), (text "brvbar", 166),
    (text "bull", 8226), (text "cap", 8745), (text "ccedil", 231), (text "cedil", 184), (text "cent", 162),
    (text "chi", 967), (text "circ", 710), (text "clubs", 9827), (text "cong", 8773), (text "copy", 169),
    (text "crarr", 8629), (text "cup", 8746), (text "curren", 164), (text "dArr", 8659),
    (text "dagger", 8224), (text "darr", 8595), (text "deg", 176), (text "delta", 948),
    (text "diams", 9830), (text "die", 168), (text "divide", 247), (text "eacute", 233),
    (text "ecirc", 234), (text "egrave", 232), (text "empty", 8709), (text "emsp", 8195),
    (text "ensp", 8194), (text "epsilon", 949), (text "equiv", 8801), (text "eta", 951), (text "eth", 240),
    (text "euml", 235), (text "euro", 8364), (text "exist", 8707), (text "fnof", 402),
    (text "forall", 8704), (text "frac12", 189), (text "frac14", 188), (text "frac34", 190),
    (text "frasl", 8260), (text "gamma", 947), (text "ge", 8805), (text "gt", 62), (text "hArr", 8660),
    (text "harr", 8596), (text "hearts", 9829), (text "hellip", 8230), (text "hibar", 175),
    (text "iacute", 237), (text "icirc", 238), (text "iexcl", 161), (text "igrave", 236),
    (text "image", 8465), (text "infin", 8734), (text "int", 8747), (text "iota", 953),
    (text "iquest", 191), (text "isin", 8712), (text "iuml", 239), (text "kappa", 954),
    (text "lArr", 8656), (text "lambda", 955), (text "lang", 9001), (text "laquo", 171),
    (text "larr", 8592), (text "lceil", 8968), (text "ldquo", 8220), (text "le", 8804),
    (text "lfloor", 8970), (text "lowast", 8727), (text "loz", 9674), (text "lrm", 8206),
    (text "lsaquo", 8249), (text "lsquo", 8216), (text "lt", 60), (text "macr", 175), (text "mdash", 8212),
    (text "micro", 181), (text "middot", 183), (text "minus", 8722), (text "mu", 956),
    (text "nabla", 8711), (text "nbsp", 160), (text "ndash", 8211), (text "ne", 8800), (text "ni", 8715),
    (text "not", 172), (text "notin", 8713), (text "nsub", 8836), (text "ntilde", 241), (text "nu", 957),
    (text "oacute", 243), (text "ocirc", 244), (text "oelig", 339), (text "ograve", 242),
    (text "oline", 8254), (text "omega", 969), (text "omicron", 959), (text "oplus", 8853),
    (text "or", 8744), (text "ordf", 170), (text "ordm", 186), (text "oslash", 248), (text "otilde", 245),
    (text "otimes", 8855), (text "ouml", 246), (text "para", 182), (text "part", 8706),
    (text "permil", 8240), (text "perp", 8869), (text "phi", 966), (text "pi", 960), (text "piv", 982),
    (text "plusmn", 177), (text "pound", 163), (text "prime", 8242), (text "prod", 8719),
    (text "prop", 8733), (text "psi", 968), (text "quot", 34), (text "rArr", 8658), (text "radic", 8730),
    (text "rang", 9002), (text "raquo", 187), (text "rarr", 8594), (text "rceil", 8969),
    (text "rdquo", 8221), (text "real", 8476), (text "reg", 174), (text "rfloor", 8971), (text "rho", 961),
    (text "rlm", 8207), (text "rsaquo", 8250), (text "rsquo", 8217), (text "sbquo", 8218),
    (text "scaron", 353), (text "sdot", 8901), (text "sect", 167), (text "shy", 173), (text "sigma", 963),
    (text "sigmaf", 962), (text "sim", 8764), (text "spades", 9824), (text "sub", 8834),
    (text "sube", 8838), (text "sum", 8721), (text "sup", 8835), (text "sup1", 185), (text "sup2", 178),
    (text "sup3", 179), (text "supe", 8839), (text "szlig", 223), (text "tau", 964), (text "there4", 8756),
    (text "theta", 952), (text "thetasym", 977), (text "thinsp", 8201), (text "thorn", 254),
    (text "tilde", 732), (text "times", 215), (text "trade", 8482), (text "uArr", 8657),
    (text "uacute", 250), (text "uarr", 8593), (text "ucirc", 251), (text "ugrave", 249),
    (text "uml", 168), (text "upsih", 978), (text "upsilon", 965), (text "uuml", 252),
    (text "weierp", 8472), (text "xi", 958), (text "yacute", 253), (text "yen", 165), (text "yuml", 255),
    (text "zeta", 950), (text "zwj", 8205), (text "zwnj", 8204)]

/-- `_mxml_entity_cb`; `none` is -1. `strcmp` compares characters as `unsigned char`. -/
def mxmlEntityCb (name : List UInt8) : Option ℕ :=
  Bisect.search entities name 0 (entities.length - 1)

/-- `mxmlEntityGetValue`, with the callback that is there from the start, which is the only one. -/
def mxmlEntityGetValue (name : List UInt8) : Option ℕ := mxmlEntityCb name

/-- `mxmlEntityGetName`; `none` is `NULL`. -/
def mxmlEntityGetName (val : UInt8) : Option (List UInt8) :=
  if val = ch '&' then some (text "amp")
  else if val = ch '<' then some (text "lt")
  else if val = ch '>' then some (text "gt")
  else if val = ch '"' then some (text "quot")
  else none

theorem entities_ascending : Bisect.Ascending entities :=
  Bisect.ascending_of_isChain (by decide +kernel)

/-- **The search finds the names of the table and their characters.** -/
theorem mxmlEntityGetValue_eq_some_iff (name : List UInt8) (val : ℕ) :
    mxmlEntityGetValue name = some val ↔ (name, val) ∈ entities :=
  Bisect.search_eq_some_iff entities_ascending (by decide) val

end Sunda
