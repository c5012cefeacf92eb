import TreeSelection.Path
import TreeSelection.Text.Caseless

namespace TreeSelection.FileType

def textExtensions : List String :=
  ["txt", "md", "markdown", "rst", "adoc", "rs", "py", "js", "ts", "jsx", "tsx", "java", "c",
    "cpp", "cxx", "cc", "h", "hpp", "hxx", "go", "rb", "php", "swift", "kt", "kts", "scala", "clj",
    "hs", "ml", "fs", "html", "htm", "xml", "css", "scss", "sass", "less", "svg", "vue", "svelte",
    "json", "jsonl", "yaml", "yml", "toml", "ini", "cfg", "conf", "properties", "sql", "sh",
    "bash", "zsh", "fish", "ps1", "bat", "cmd", "tex", "r", "lua", "dart", "elm", "ex", "exs",
    "erl", "nim", "zig", "graphql", "gql", "prisma", "proto", "csv", "tsv", "mjs", "cjs", "lock",
    "env", "gitignore", "gitattributes", "editorconfig", "dockerfile", "makefile", "cmake",
    "gradle", "nix", "ipynb", "pyi"]

def imageExtensions : List String :=
  ["jpg", "jpeg", "png", "gif", "bmp", "ico", "webp", "tiff", "tif", "raw", "cr2", "nef", "dng",
    "heic", "heif", "avif", "icns"]

def binaryExtensions : List String :=
  ["exe", "dll", "so", "dylib", "app", "deb", "rpm", "msi", "zip", "tar", "gz", "bz2", "xz", "7z",
    "rar", "jar", "war", "mp3", "mp4", "avi", "mkv", "mov", "wmv", "flv", "webm", "wav", "pdf",
    "doc", "docx", "xls", "xlsx", "ppt", "pptx", "bin", "dat", "db", "sqlite", "sqlite3", "rlib",
    "rmeta", "pdb", "lib", "a", "obj", "o", "class", "pyc", "pyo", "wasm", "ttf", "otf", "woff",
    "woff2", "crate", "gem", "whl", "egg"]

/-- Stands for the registry of media types, which is kept elsewhere: the extensions whose first type
in it is not one of texts. They are looked up without regard to case. -/
def mediaRegistry : List String :=
  ["123", "3ds", "3g2", "3gp", "3gp2", "3gpp", "aa", "aab", "aac", "aaf", "aam", "aas", "aax",
    "abw", "ac", "ac3", "aca", "acc", "accda", "accdb", "accdc", "accde", "accdr", "accdt",
    "accdw", "accft", "ace", "acu", "acutc", "acx", "ade", "adobebridge", "adp", "adt", "adts",
    "aep", "afm", "afp", "ahead", "ai", "aif", "aifc", "aiff", "air", "ait", "amc", "ami", "anx",
    "apk", "apng", "application", "apr", "arc", "arj", "art", "arw", "asc", "asd", "asf", "asi",
    "aso", "asr", "asx", "atc", "atx", "au", "avifs", "aw", "axa", "axs", "axv", "azf", "azs",
    "azw", "bcpio", "bdf", "bdm", "bdoc", "bed", "bh2", "blb", "blorb", "bmi", "book", "box",
    "boz", "bpk", "btif", "buffer", "bz", "c11amc", "c11amz", "c4d", "c4f", "c4g", "c4p", "c4u",
    "cab", "caf", "calx", "cap", "car", "cat", "cb7", "cba", "cbr", "cbt", "cbz", "cco", "cct",
    "cdbcmsg", "cdda", "cdf", "cdkey", "cdmia", "cdmic", "cdmid", "cdmio", "cdmiq", "cdy", "cer",
    "cfs", "cgm", "chat", "chm", "chrt", "cii", "cil", "cla", "class", "clkk", "clkp", "clkt",
    "clkw", "clkx", "clp", "cmc", "cmp", "cmx", "cod", "com", "cpio", "cpt", "cr3", "crd", "crl",
    "crt", "crw", "crx", "cryptonote", "csh", "csp", "cst", "cu", "cur", "cww", "cxt", "daf",
    "dataless", "dcr", "ddd", "deploy", "der", "dfac", "dgc", "dib", "dif", "dir", "dis", "dist",
    "distz", "divx", "djv", "djvu", "dmg", "dmp", "dms", "dna", "docm", "dot", "dotm", "dotx",
    "dp", "dpg", "dra", "dsp", "dssc", "dts", "dtshd", "dump", "dv", "dvb", "dvi", "dwg", "dwp",
    "dxf", "dxp", "dxr", "ear", "ecelp4800", "ecelp7470", "ecelp9600", "edm", "edx", "efif", "ei6",
    "elc", "emf", "emz", "eol", "eot", "eps", "epub", "erf", "esa", "esf", "etl", "eva", "evy",
    "exi", "ext", "ez", "ez2", "ez3", "f4v", "fbs", "fcdt", "fcs", "fdf", "fe_launch", "fg5",
    "fgd", "fh", "fh4", "fh5", "fh7", "fhc", "fif", "fig", "fla", "flac", "fli", "flo", "flv",
    "flw", "fm", "fnc", "fpx", "frame", "fsc", "fsscript", "fst", "fsx", "ftc", "fti", "fvt",
    "fxp", "fxpl", "fzs", "g2w", "g3", "g3w", "gac", "gam", "gbr", "gca", "gdoc", "geo", "gex",
    "ggb", "ggt", "ghf", "gim", "gmx", "gnumeric", "gph", "gqf", "gqs", "gram", "gramps", "gre",
    "grv", "gsf", "gsheet", "gslides", "gsm", "gtar", "gtm", "gxf", "gxt", "h261", "h263", "h264",
    "hbci", "hdd", "hdf", "hdr", "heics", "heifs", "hhc", "hhk", "hhp", "hjson", "hlp", "hpgl",
    "hpid", "hps", "hqx", "hta", "htke", "hvd", "hvp", "hvs", "hxd", "hxh", "hxi", "hxq", "hxr",
    "hxs", "hxw", "i2g", "icc", "icm", "ief", "ifm", "igl", "igm", "igx", "iif", "iii", "img",
    "imp", "ims", "inf", "ins", "install", "iota", "ipa", "ipfix", "ipg", "ipk", "ipsw", "irm",
    "iso", "isp", "ite", "itlp", "itms", "itp", "itpc", "ivf", "ivp", "ivu", "jam", "jardiff",
    "jck", "jcz", "jfif", "jisp", "jlt", "jng", "jnlp", "joda", "jp2", "jpb", "jpe", "jpf", "jpg2",
    "jpgm", "jpgv", "jpm", "jpx", "json5", "jxl", "k25", "kar", "karbon", "kdc", "kfo", "kia",
    "kmz", "kne", "knp", "kon", "kpr", "kpt", "kpxx", "ksp", "ktr", "ktx", "ktz", "kwd", "kwt",
    "latex", "lbd", "les", "lha", "list3820", "listafp", "lit", "lnk", "lpk", "lrf", "lrm", "lsf",
    "lsx", "ltf", "luac", "lvp", "lwp", "lzh", "m13", "m14", "m1v", "m21", "m2a", "m2t", "m2ts",
    "m2v", "m3a", "m3u", "m3u8", "m4a", "m4b", "m4p", "m4r", "m4u", "m4v", "ma", "mac", "mag",
    "maker", "man", "manifest", "mar", "mb", "mbk", "mbox", "mc1", "mcd", "mda", "mdb", "mde",
    "mdi", "mdp", "me", "mfm", "mfp", "mft", "mgp", "mgz", "mid", "midi", "mie", "mif", "mix",
    "mj2", "mjp2", "mk3d", "mka", "mks", "mlp", "mmd", "mmf", "mmr", "mng", "mny", "mobi", "mod",
    "movie", "mp2", "mp21", "mp2a", "mp2v", "mp4a", "mp4s", "mp4v", "mpa", "mpc", "mpe", "mpeg",
    "mpf", "mpg", "mpg4", "mpga", "mpm", "mpn", "mpp", "mpt", "mpv2", "mpy", "mqv", "mqy", "mrc",
    "mrw", "ms", "mseed", "mseq", "msf", "msg", "msi", "msl", "msm", "mso", "msp", "msty", "mts",
    "mus", "mvb", "mvc", "mwf", "mxf", "mxl", "mxp", "mxs", "mxu", "n-gage", "nb", "nbp", "nc",
    "ngdat", "nitf", "nlu", "nml", "nnd", "nns", "nnw", "npx", "nq", "nrw", "nsc", "nsf", "nt",
    "ntf", "nzb", "oa2", "oa3", "oas", "obd", "ocx", "oda", "odb", "odc", "odf", "odft", "odg",
    "odi", "odm", "odp", "ods", "odt", "oga", "ogg", "ogv", "ogx", "one", "onea", "onepkg",
    "onetmp", "onetoc", "onetoc2", "oprc", "opus", "orf", "org", "osf", "otc", "otg", "oth", "oti",
    "otp", "ots", "ott", "ova", "ovf", "oxps", "oxt", "p10", "p12", "p7b", "p7c", "p7m", "p7r",
    "p7s", "p8", "pac", "parquet", "paw", "pbd", "pbm", "pcap", "pcast", "pcf", "pcl", "pclxl",
    "pct", "pcurl", "pcx", "pcz", "pef", "pem", "pfa", "pfb", "pfm", "pfr", "pfx", "pgm", "pgn",
    "pgp", "pic", "pict", "pkg", "pki", "pkipath", "pko", "pkpass", "pl", "plb", "plc", "plf",
    "pls", "pm", "pma", "pmc", "pml", "pmr", "pmw", "pnm", "pnt", "pntg", "pnz", "portpkg", "pot",
    "potm", "potx", "ppa", "ppam", "ppd", "ppm", "pps", "ppsm", "ppsx", "pptm", "pqa", "prc",
    "pre", "prf", "prm", "prx", "ps", "psb", "psc1", "psd", "psf", "psm", "psp", "pst", "ptid",
    "pub", "pvb", "pwn", "pwz", "pya", "pyv", "qam", "qbo", "qfx", "qps", "qt", "qti", "qtif",
    "qtl", "qwd", "qwt", "qxb", "qxd", "qxl", "qxt", "ra", "raf", "ram", "raml", "ras", "rat",
    "rcprofile", "rdz", "rep", "rf", "rgb", "rip", "ris", "rlc", "rm", "rmi", "rmp", "rms", "rmvb",
    "rnc", "roa", "roff", "rp9", "rpss", "rpst", "rq", "rtf", "run", "rvt", "rw2", "rwl", "s3m",
    "saf", "safariextz", "sc", "scd", "scm", "scq", "scs", "sd2", "sda", "sdc", "sdd", "sdp",
    "sdw", "sea", "see", "seed", "sema", "semd", "semf", "ser", "setpay", "setreg", "sfd-hdstx",
    "sfs", "sgi", "sgimb", "sgl", "shar", "sid", "sig", "sil", "sis", "sisx", "sit", "sitx", "skd",
    "skm", "skp", "skt", "sldm", "sldx", "slk", "slt", "slupkg-ms", "sm", "smd", "smf", "smi",
    "smv", "smx", "smz", "smzip", "snd", "snf", "snp", "so", "spc", "spf", "spl", "spp", "spq",
    "spx", "sql", "sr2", "src", "srt", "sse", "ssf", "ssm", "sst", "st", "stc", "std", "step",
    "stf", "sti", "stk", "stl", "stp", "str", "stw", "sus", "susp", "sv4cpio", "sv4crc", "svd",
    "svg", "svgz", "swa", "swf", "swi", "sxc", "sxd", "sxg", "sxi", "sxm", "sxw", "t", "t3",
    "taglet", "tao", "tcap", "tcl", "teacher", "texi", "texinfo", "tfm", "tga", "tgz", "thmx",
    "thn", "tiff", "tk", "tmo", "toc", "torrent", "tpl", "tpt", "tr", "tra", "trig", "trm", "ts",
    "tsd", "ttc", "tts", "twd", "twds", "txd", "txf", "u32", "udeb", "ufd", "ufdl", "ulx", "umj",
    "unityweb", "ustar", "utz", "uva", "uvd", "uvf", "uvg", "uvh", "uvi", "uvm", "uvp", "uvs",
    "uvu", "uvv", "uvva", "uvvd", "uvvf", "uvvg", "uvvh", "uvvi", "uvvm", "uvvp", "uvvs", "uvvu",
    "uvvv", "uvvx", "uvvz", "uvx", "uvz", "vbk", "vbox", "vbox-extpack", "vcd", "vcg", "vcx",
    "vdi", "vdx", "vhd", "vis", "viv", "vmdk", "vob", "vor", "vox", "vsd", "vsf", "vsi", "vsix",
    "vss", "vst", "vsto", "vsw", "vsx", "vtx", "w3d", "wad", "wasm", "wave", "wax", "wbk", "wbmp",
    "wbxml", "wcm", "wdb", "wdp", "weba", "webarchive", "wg", "wgt", "wiz", "wks", "wlmp",
    "wlpginstall", "wlpginstall3", "wm", "wma", "wmd", "wmf", "wmlc", "wmlsc", "wmp", "wmx", "wmz",
    "woff", "woff2", "wpd", "wpl", "wps", "wqd", "wri", "wtb", "wvx", "x", "x32", "x3f", "xap",
    "xar", "xbap", "xbd", "xbm", "xdw", "xfdf", "xfdl", "xif", "xla", "xlam", "xlc", "xld", "xlk",
    "xll", "xlm", "xls", "xlsb", "xlsm", "xlsx", "xlt", "xltm", "xltx", "xlw", "xm", "xmp", "xo",
    "xpi", "xpm", "xpr", "xps", "xpw", "xpx", "xsn", "xtp", "xwd", "yang", "z", "z1", "z2", "z3",
    "z4", "z5", "z6", "z7", "z8", "zir", "zirz"]

/-- The extension of the last segment, in lower case. A name with nothing before its only dot has
none, unless what follows is itself known as a kind of text. -/
def extension? (path : String) : Option String :=
  let name := (Path.fileName path).toList
  match name.reverse.dropWhile (· != '.') with
  | [] => none
  | _ :: stem =>
    let ext := Text.lowerCase (.ofList (name.reverse.takeWhile (· != '.')).reverse)
    if stem.isEmpty && !textExtensions.contains ext then none else some ext

def isBinaryExtension (ext : String) : Bool :=
  !textExtensions.contains ext &&
    (binaryExtensions.contains ext || imageExtensions.contains ext ||
      mediaRegistry.contains (Text.caseless ext))

def isBinary (path : String) : Bool := (extension? path).any isBinaryExtension

def isImage (path : String) : Bool :=
  (extension? path).any fun ext => imageExtensions.contains ext || ext == "svg"

end TreeSelection.FileType
